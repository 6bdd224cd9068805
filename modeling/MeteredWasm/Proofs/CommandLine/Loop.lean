import MeteredWasm.Proofs.CommandLine.Script
import MeteredWasm.Proofs.Session.Use

/-!
# The limit on ticks

A run that is to stop after so many ticks makes no more of them (`tick_limit_respected`). It stops
in the tick in which the entry returns, or an error, or after the last one that it may make; there
it leaves a snapshot, if one is asked for. How far it has come is `Rounds`, and what it comes to
from there is `Stop`.

A limit is looked at behind a tick, so it has to be one: no ticks at all is no limit
(`run_limit_zero`).
-/

set_option autoImplicit false

namespace MeteredWasm.CommandLine

open Machine Script

/-! ## What is said about ticks -/

/-- The number of the tick that a line is about, and whether the entry returned in it. -/
def Line.tick? : Line → Option (Nat × Bool)
  | .paused tick _ => some (tick, false)
  | .finished ticks => some (ticks, true)
  | .printed _ | .resuming _ | .migrated _ | .wrote _ _ => none

/-- What has been said about ticks, last one first. -/
def ticksSaid (said : List Line) : List (Nat × Bool) := said.filterMap Line.tick?

/-- What is said about so many ticks that the entry does not return in. -/
def pausedTicks : Nat → List (Nat × Bool)
  | 0 => []
  | k + 1 => (k + 1, false) :: pausedTicks k

theorem ticksSaid_printed (calls : List HostCall) (said : List Line) :
    ticksSaid (printed calls ++ said) = ticksSaid said := by
  have hnone : (printed calls).filterMap Line.tick? = [] := by
    simp [printed, List.filterMap_map, Function.comp_def, Line.tick?]
  rw [ticksSaid, List.filterMap_append, hnone, List.nil_append, ticksSaid]

theorem ticksSaid_cons (line : Line) (said : List Line) :
    ticksSaid (line :: said) = line.tick?.toList ++ ticksSaid said := by
  cases h : line.tick? <;> simp [ticksSaid, h]

namespace RunSettings

/-! ## How a run goes -/

section
variable (fuel : Nat) (s : RunSettings) (fresh : Executor)

/-- A tick that the entry does not return in: it is the `k`-th of the run, begins in `e` and leaves
the run in the executor that the next one would begin in. -/
inductive Round (k : Nat) (e : Executor) : Executor → Prop
  | stays {ran : Executor} (run : e.run fuel s.gas = some (.ok false, ran))
      (stays : s.migrateAfter ≠ some k) : Round k e ran
  | moves {ran next : Executor} {snapshot : ByteArray}
      (run : e.run fuel s.gas = some (.ok false, ran)) (moves : s.migrateAfter = some k)
      (taken : ran.serialize = some snapshot) (restored : fresh.deserialize snapshot = .ok next) :
      Round k e next

/-- The first `k` ticks of a run, each of which runs an executor once. -/
inductive Rounds (e₀ : Executor) : Nat → Executor → Prop
  | start : Rounds e₀ 0 e₀
  | next {k : Nat} {e e' : Executor} (before : Rounds e₀ k e)
      (round : Round fuel s fresh (k + 1) e e') : Rounds e₀ (k + 1) e'

/-- How a run ends in the tick behind the first `k`, in which it runs an executor once more, and
what is said about ticks by then. -/
inductive Breaks (k : Nat) (e : Executor) : Except Failure Ending → List (Nat × Bool) → Prop
  | returned {ran : Executor} (run : e.run fuel s.gas = some (.ok true, ran)) :
      Breaks k e (.ok .done) ((k + 1, true) :: pausedTicks k)
  | failed {error : ExecutionError} {ran : Executor}
      (run : e.run fuel s.gas = some (.error error, ran)) :
      Breaks k e (.error (.execution error)) (pausedTicks k)
  /-- The run is to move on, but nothing is paused. -/
  | idle {ran : Executor} (run : e.run fuel s.gas = some (.ok false, ran))
      (moves : s.migrateAfter = some (k + 1)) (idle : ran.serialize = none) :
      Breaks k e (.error .notPaused) (pausedTicks (k + 1))
  /-- The run is to move on, but into another size of memory. -/
  | unfit {ran : Executor} {snapshot : ByteArray} {error : RestoreError}
      (run : e.run fuel s.gas = some (.ok false, ran)) (moves : s.migrateAfter = some (k + 1))
      (taken : ran.serialize = some snapshot)
      (refused : fresh.deserialize snapshot = .error error) :
      Breaks k e (.error (.restore error)) (pausedTicks (k + 1))

end

/-- How a run ends at its limit, in `e`. -/
inductive AtLimit (s : RunSettings) (e : Executor) : Except Failure Ending → Prop
  | silent (unasked : s.snapshot = none) : AtLimit s e (.ok .done)
  | saved {path : String} {snapshot : ByteArray} (asked : s.snapshot = some path)
      (taken : e.serialize = some snapshot) : AtLimit s e (.ok (.save path snapshot))
  | idle {path : String} (asked : s.snapshot = some path) (idle : e.serialize = none) :
      AtLimit s e (.error .notPaused)

/-- How a run with a limit of `n` ticks ends after `k` of them. -/
inductive Stop (fuel : Nat) (s : RunSettings) (fresh : Executor) (n k : Nat) (e : Executor) :
    Except Failure Ending → List (Nat × Bool) → Prop
  | breaks {result : Except Failure Ending} {ticks : List (Nat × Bool)} (below : k < n)
      (breaks : Breaks fuel s fresh k e result ticks) : Stop fuel s fresh n k e result ticks
  | limit {result : Except Failure Ending} (all : k = n) (limit : AtLimit s e result) :
      Stop fuel s fresh n k e result (pausedTicks n)

/-! ## A tick -/

section
variable {fuel : Nat} {s : RunSettings} {fresh : Executor} {p : Progress} {said : List Line}

/-- What a tick comes to. -/
inductive Ticked (fuel : Nat) (s : RunSettings) (fresh : Executor) (p : Progress)
    (said : List Line) : Option (Except Failure Turn × List Line) → Prop
  | unended (run : p.executor.run fuel s.gas = none) : Ticked fuel s fresh p said none
  | broken (result : Except Failure Ending) {ticks : List (Nat × Bool)} {said' : List Line}
      (breaks : Breaks fuel s fresh p.ticks p.executor result ticks)
      (noted : ticksSaid said = pausedTicks p.ticks → ticksSaid said' = ticks) :
      Ticked fuel s fresh p said (some (result.map .ended, said'))
  | limit {e : Executor} (result : Except Failure Ending) {said' : List Line}
      (round : Round fuel s fresh (p.ticks + 1) p.executor e)
      (reached : s.maxTicks = some (p.ticks + 1)) (limit : AtLimit s e result)
      (noted : ticksSaid said' = (p.ticks + 1, false) :: ticksSaid said) :
      Ticked fuel s fresh p said (some (result.map .ended, said'))
  | again {e : Executor} {said' : List Line}
      (round : Round fuel s fresh (p.ticks + 1) p.executor e)
      (below : s.maxTicks ≠ some (p.ticks + 1))
      (noted : ticksSaid said' = (p.ticks + 1, false) :: ticksSaid said) :
      Ticked fuel s fresh p said (some (.ok (.again { p with executor := e, ticks := p.ticks + 1 }), said'))

/-- The end of a tick that pauses. -/
def turn (s : RunSettings) (p : Progress) : Script Turn := do
  if s.maxTicks = some p.ticks then
    match s.snapshot with
    | none => return .ended .done
    | some path => return .ended (.save path (← capture p.executor))
  return .again p

/-- Moves on if it is time for that. -/
def move (fuel : Nat) (s : RunSettings) (ticks : Nat) (p : Progress) : Script Executor :=
  if s.migrateAfter = some ticks then migrate fuel p else pure p.executor

theorem tick_eq : s.tick fuel p = (do
    let (finished, ran) ← advance fuel s p.executor
    if finished then
      say (.finished (p.ticks + 1))
      return .ended .done
    say (.paused (p.ticks + 1) ran.gas)
    let e ← move fuel s (p.ticks + 1) { p with executor := ran }
    s.turn { p with executor := e, ticks := p.ticks + 1 }) := by
  unfold tick move
  by_cases hmoves : s.migrateAfter = some (p.ticks + 1)
  · simp only [if_pos hmoves]
    rfl
  · simp only [if_neg hmoves]
    rfl

theorem ticked_turn {e : Executor} {said' : List Line}
    (hround : Round fuel s fresh (p.ticks + 1) p.executor e)
    (hsaid : ticksSaid said' = (p.ticks + 1, false) :: ticksSaid said) :
    Ticked fuel s fresh p said ((s.turn { p with executor := e, ticks := p.ticks + 1 }).run said') := by
  unfold turn
  by_cases hlimit : s.maxTicks = some (p.ticks + 1)
  · rw [if_pos hlimit]
    cases hasked : s.snapshot with
    | none => exact .limit (.ok .done) hround hlimit (.silent hasked) hsaid
    | some path =>
      cases htaken : e.serialize with
      | none =>
        rw [run_bind_of_error (run_capture_of_idle htaken)]
        exact .limit (.error .notPaused) hround hlimit (.idle hasked htaken) hsaid
      | some snapshot =>
        rw [run_bind_of_ok (run_capture_of_taken htaken)]
        exact .limit (.ok (.save path snapshot)) hround hlimit (.saved hasked htaken) hsaid
  · rw [if_neg hlimit]
    exact .again hround hlimit hsaid

section
variable {snapshot : ByteArray} {calls : List HostCall}

theorem run_migrate_of_idle (hidle : p.executor.serialize = none) :
    (migrate fuel p).run said = some (.error .notPaused, said) :=
  run_bind_of_error (run_capture_of_idle hidle)

theorem run_migrate_of_taken (hcreate : create fuel p.runtime p.artifact = some (.ok fresh, calls))
    (htaken : p.executor.serialize = some snapshot) : (migrate fuel p).run said = (do
      let next ← restore fresh snapshot
      say (.migrated snapshot.size)
      return next : Script Executor).run (printed calls ++ said) := by
  have hmade : (createExecutor fuel p.runtime p.artifact).run said =
      some (.ok fresh, printed calls ++ said) := by
    rw [run_createExecutor, hcreate]
    rfl
  unfold migrate
  rw [run_bind_of_ok (run_capture_of_taken htaken), run_bind_of_ok hmade]

theorem run_migrate_of_unfit (hcreate : create fuel p.runtime p.artifact = some (.ok fresh, calls))
    (htaken : p.executor.serialize = some snapshot) {error : RestoreError}
    (hrefused : fresh.deserialize snapshot = .error error) :
    (migrate fuel p).run said = some (.error (.restore error), printed calls ++ said) := by
  have hrestore := @run_restore fresh (printed calls ++ said) snapshot
  rw [hrefused] at hrestore
  rw [run_migrate_of_taken hcreate htaken, run_bind_of_error hrestore]

theorem run_migrate_of_fit (hcreate : create fuel p.runtime p.artifact = some (.ok fresh, calls))
    (htaken : p.executor.serialize = some snapshot) {next : Executor}
    (hrestored : fresh.deserialize snapshot = .ok next) : (migrate fuel p).run said =
      some (.ok next, .migrated snapshot.size :: (printed calls ++ said)) := by
  have hrestore := @run_restore fresh (printed calls ++ said) snapshot
  rw [hrestored] at hrestore
  rw [run_migrate_of_taken hcreate htaken, run_bind_of_ok hrestore]
  rfl

end

/-- What follows where the entry has not returned. -/
theorem ticked_move {ran : Executor} {said' : List Line} {calls : List HostCall}
    (hcreate : create fuel p.runtime p.artifact = some (.ok fresh, calls))
    (hrun : p.executor.run fuel s.gas = some (.ok false, ran))
    (hsaid : ticksSaid said' = (p.ticks + 1, false) :: ticksSaid said) :
    Ticked fuel s fresh p said ((do
      let e ← move fuel s (p.ticks + 1) { p with executor := ran }
      s.turn { p with executor := e, ticks := p.ticks + 1 } : Script Turn).run said') := by
  unfold move
  by_cases hmoves : s.migrateAfter = some (p.ticks + 1)
  · rw [if_pos hmoves]
    cases htaken : ran.serialize with
    | none =>
      rw [run_bind_of_error (run_migrate_of_idle htaken)]
      refine .broken (.error .notPaused) (.idle hrun hmoves htaken) fun h => ?_
      rw [hsaid, h, pausedTicks]
    | some snapshot =>
      cases hrestored : fresh.deserialize snapshot with
      | error error =>
        rw [run_bind_of_error (@run_migrate_of_unfit fuel fresh { p with executor := ran } _ _ _
          hcreate htaken _ hrestored)]
        refine .broken (.error (.restore error)) (.unfit hrun hmoves htaken hrestored)
          fun h => ?_
        rw [ticksSaid_printed, hsaid, h, pausedTicks]
      | ok next =>
        rw [run_bind_of_ok (@run_migrate_of_fit fuel fresh { p with executor := ran } _ _ _
          hcreate htaken _ hrestored)]
        refine ticked_turn (.moves hrun hmoves htaken hrestored) ?_
        rw [ticksSaid_cons, ticksSaid_printed, hsaid]
        rfl
  · rw [if_neg hmoves, run_bind_of_ok (run_pure ran said')]
    exact ticked_turn (.stays hrun hmoves) hsaid

/-- A tick is one run of an executor, and then a move if it is time for that. -/
theorem ticked_tick {calls : List HostCall}
    (hcreate : create fuel p.runtime p.artifact = some (.ok fresh, calls)) :
    Ticked fuel s fresh p said ((s.tick fuel p).run said) := by
  have hadvance := @run_advance fuel s p.executor said
  rw [tick_eq]
  cases hrun : p.executor.run fuel s.gas with
  | none =>
    rw [hrun] at hadvance
    rw [run_bind_of_none hadvance]
    exact .unended hrun
  | some answered =>
    obtain ⟨answer, ran⟩ := answered
    rw [hrun] at hadvance
    cases answer with
    | error error =>
      rw [run_bind_of_error hadvance]
      refine .broken (.error (.execution error)) (.failed hrun) fun hsaid => ?_
      rw [ticksSaid_printed, hsaid]
    | ok finished =>
      rw [run_bind_of_ok hadvance]
      cases finished with
      | true =>
        refine .broken (.ok .done) (.returned hrun) fun hsaid => ?_
        rw [ticksSaid_cons, ticksSaid_printed, hsaid]
        rfl
      | false =>
        have hsaid : ticksSaid
            (.paused (p.ticks + 1) ran.gas :: (printed (newCalls p.executor ran) ++ said)) =
              (p.ticks + 1, false) :: ticksSaid said := by
          rw [ticksSaid_cons, ticksSaid_printed]
          rfl
        exact ticked_move hcreate hrun hsaid

end

/-! ## Before the first tick -/

/-- Says nothing about ticks. -/
def Tickless {α : Type} (x : Script α) : Prop :=
  ∀ (said said' : List Line) (result : Except Failure α),
    x.run said = some (result, said') → ticksSaid said' = ticksSaid said

namespace Tickless

variable {α β : Type}

theorem pure (a : α) : Tickless (Pure.pure a) := by
  intro said said' result h
  cases h
  rfl

theorem bind {x : Script α} {f : α → Script β} (hx : Tickless x) (hf : ∀ a, Tickless (f a)) :
    Tickless (x >>= f) := by
  intro said said' result h
  rcases run_bind_cases h with ⟨a, between, hfirst, hsecond⟩ | ⟨failure, hfirst, -⟩
  · exact (hf a _ _ _ hsecond).trans (hx _ _ _ hfirst)
  · exact hx _ _ _ hfirst

theorem say {line : Line} (h : line.tick? = none) : Tickless (Script.say line) := by
  intro said said' result hsay
  cases hsay
  rw [ticksSaid_cons, h]
  rfl

theorem readFile (files : Files) (path : String) : Tickless (Script.readFile files path) := by
  intro said said' result h
  unfold Script.readFile at h
  cases hfile : files path <;> rw [hfile] at h <;> cases h <;> rfl

theorem ofExcept {ε : Type} (failure : ε → Failure) (result : Except ε α) :
    Tickless (Script.ofExcept failure result) := by
  intro said said' _ h
  cases result <;> cases h <;> rfl

end Tickless

section
variable {fuel : Nat} {s : RunSettings} {w : World}

theorem tickless_createExecutor (r : Runtime) (a : Artifact) :
    Tickless (createExecutor fuel r a) := by
  intro said said' result h
  rw [run_createExecutor] at h
  obtain ⟨made, -, hmade⟩ := Option.map_eq_some_iff.1 h
  cases hmade
  exact ticksSaid_printed _ _

theorem tickless_prepare : Tickless (s.prepare fuel w) := by
  rw [prepare_eq]
  refine .bind (.readFile w.files s.file) fun bytes => .bind (.ofExcept id _) fun a =>
    .bind (tickless_createExecutor _ a) fun e => ?_
  cases s.resume with
  | none => exact .pure _
  | some path =>
    exact .bind (.readFile w.files path) fun snapshot =>
      .bind (.ofExcept .restore _) fun restored => .bind (.say rfl) fun _ => .pure _

/-- A run starts at tick 0, in an executor that can be made again. -/
theorem prepare_eq_ok {p : Progress} {said said' : List Line}
    (h : (s.prepare fuel w).run said = some (.ok p, said')) :
    p.ticks = 0 ∧ ∃ fresh calls, create fuel p.runtime p.artifact = some (.ok fresh, calls) := by
  rw [prepare_eq] at h
  obtain ⟨bytes, _, -, h⟩ := run_bind_eq_ok h
  obtain ⟨a, _, -, h⟩ := run_bind_eq_ok h
  obtain ⟨e, _, hmade, h⟩ := run_bind_eq_ok h
  rw [run_createExecutor] at hmade
  have hcreate : ∃ fresh calls, create fuel (s.runtime w) a = some (.ok fresh, calls) := by
    obtain ⟨⟨made, calls⟩, hcreate, hresult⟩ := Option.map_eq_some_iff.1 hmade
    cases made with
    | error error => cases hresult
    | ok fresh => exact ⟨fresh, calls, hcreate⟩
  cases hresume : s.resume with
  | none =>
    rw [hresume] at h
    cases h
    exact ⟨rfl, hcreate⟩
  | some path =>
    rw [hresume] at h
    obtain ⟨snapshot, _, -, h⟩ := run_bind_eq_ok h
    obtain ⟨restored, _, -, h⟩ := run_bind_eq_ok h
    obtain ⟨_, _, -, h⟩ := run_bind_eq_ok h
    cases h
    exact ⟨rfl, hcreate⟩

end

/-! ## Whole runs -/

section
variable {fuel n k : Nat} {s : RunSettings} {fresh e₀ e : Executor} {w : World}

/-- No error has stopped the executor that a tick leaves a run in. -/
theorem Rounds.unfaulted (h : Rounds fuel s fresh e₀ k e) (hk : 0 < k) : e.faulted = false := by
  cases h with
  | start => omega
  | next before round =>
    cases round with
    | stays hrun =>
      cases Executor.ran_of_run hrun with
      | idle unfaulted => exact unfaulted
      | ended unfaulted => exact unfaulted
    | moves _ _ _ hrestored => exact (Executor.restored_keeps hrestored).2.2

/-- What a run comes to that has started in `e₀` and may make `most` ticks, for the time that there
is. -/
inductive Followed (fuel : Nat) (s : RunSettings) (fresh e₀ : Executor) (n most : Nat) :
    Option (Except Failure Ending × List Line) → Prop
  | unended {k : Nat} {e : Executor} (rounds : Rounds fuel s fresh e₀ k e) (below : k < n)
      (unended : e.run fuel s.gas = none ∨ k = most) : Followed fuel s fresh e₀ n most none
  | stopped {k : Nat} {e : Executor} {result : Except Failure Ending} {said : List Line}
      (rounds : Rounds fuel s fresh e₀ k e)
      (stop : Stop fuel s fresh n k e result (ticksSaid said)) :
      Followed fuel s fresh e₀ n most (some (result, said))

theorem followed_follow {r : Runtime} {a : Artifact} {calls : List HostCall}
    (hlimit : s.maxTicks = some n) (hcreate : create fuel r a = some (.ok fresh, calls))
    (left : Nat) {p : Progress} {said : List Line} (hr : p.runtime = r) (ha : p.artifact = a)
    (hrounds : Rounds fuel s fresh e₀ p.ticks p.executor)
    (hbelow : p.ticks < n) (hsaid : ticksSaid said = pausedTicks p.ticks) :
    Followed fuel s fresh e₀ n (p.ticks + left) ((s.follow fuel left p).run said) := by
  induction left generalizing p said with
  | zero => exact .unended hrounds hbelow (.inr rfl)
  | succ left ih =>
    have hticked := @ticked_tick fuel s fresh p said calls (hr ▸ ha ▸ hcreate)
    rw [follow]
    generalize htick : (s.tick fuel p).run said = ticked at hticked
    cases hticked with
    | unended hrun =>
      rw [run_bind_of_none htick]
      exact .unended hrounds hbelow (.inl hrun)
    | @broken result _ said' hbreaks hnoted =>
      obtain rfl := hnoted hsaid
      have hstop : Stop fuel s fresh n p.ticks p.executor result (ticksSaid said') :=
        .breaks hbelow hbreaks
      cases result with
      | error failure =>
        rw [run_bind_of_error htick]
        exact .stopped hrounds hstop
      | ok ending =>
        rw [run_bind_of_ok htick]
        exact .stopped hrounds hstop
    | @limit e result said' hround hreached hend hnoted =>
      obtain rfl : p.ticks + 1 = n := Option.some.inj (hreached.symm.trans hlimit)
      have hstop : Stop fuel s fresh (p.ticks + 1) (p.ticks + 1) e result (ticksSaid said') := by
        rw [hnoted, hsaid]
        exact .limit rfl hend
      have hmade := hrounds.next hround
      cases result with
      | error failure =>
        rw [run_bind_of_error htick]
        exact .stopped hmade hstop
      | ok ending =>
        rw [run_bind_of_ok htick]
        exact .stopped hmade hstop
    | @again e said' hround hnot hnoted =>
      have hne : p.ticks + 1 ≠ n := fun h => hnot (by rw [h, hlimit])
      rw [run_bind_of_ok htick, show p.ticks + (left + 1) = p.ticks + 1 + left by omega]
      have hnext : p.ticks + 1 < n := by omega
      refine @ih { p with executor := e, ticks := p.ticks + 1 } said' hr ha (hrounds.next hround)
        hnext ?_
      rw [hnoted, hsaid]
      rfl

theorem Stop.le {result : Except Failure Ending} {ticks : List (Nat × Bool)}
    (h : Stop fuel s fresh n k e result ticks) : k ≤ n := by
  cases h with
  | breaks below => exact Nat.le_of_lt below
  | limit all => exact Nat.le_of_eq all

theorem length_pausedTicks (k : Nat) : (pausedTicks k).length = k := by
  induction k with
  | zero => rfl
  | succ k ih => rw [pausedTicks, List.length_cons, ih]

theorem Stop.length_le {result : Except Failure Ending} {ticks : List (Nat × Bool)}
    (h : Stop fuel s fresh n k e result ticks) : ticks.length ≤ n := by
  cases h with
  | breaks below breaks =>
    cases breaks with
    | returned =>
      rw [List.length_cons, length_pausedTicks]
      omega
    | failed | idle | unfit =>
      rw [length_pausedTicks]
      omega
  | limit => rw [length_pausedTicks]

/-- A snapshot is written exactly at the limit, if one is asked for and there is something to
take. -/
theorem Stop.write_iff {result : Except Failure Ending} {ticks : List (Nat × Bool)}
    (h : Stop fuel s fresh n k e result ticks) (hopen : k = n → e.faulted = false) (write : Write) :
    (∃ ending, result = .ok ending ∧ ending.write? = some write) ↔
      k = n ∧ ∃ path, s.snapshot = some path ∧ e.isPaused = true ∧
        write = ⟨path, e.memory.bytes, [.wrote e.memory.bytes.size path]⟩ := by
  cases h with
  | breaks below breaks =>
    refine ⟨fun ⟨ending, hok, hwrite⟩ => ?_, fun ⟨hall, _⟩ => ?_⟩
    · cases breaks <;> cases hok
      cases hwrite
    · omega
  | limit all limit =>
    cases limit with
    | silent unasked => simp [Ending.write?, unasked]
    | @saved path snapshot asked taken =>
      obtain ⟨hpaused, -, rfl⟩ := Executor.serialize_eq_some.1 taken
      have hpaused : e.isPaused = true := hpaused
      simp [Ending.write?, asked, all, hpaused, eq_comm]
    | idle asked idle =>
      have hpaused : e.isPaused ≠ true := fun hp => by
        have htaken := Executor.serialize_eq_some.2 ⟨hp, hopen all, rfl⟩
        rw [idle] at htaken
        cases htaken
      simp [hpaused]

/-- A run with a limit makes no more ticks than that, and comes to an end for it.

What cannot be made ready does not run, and says nothing about ticks. Otherwise the run starts in
the executor that has been made ready and makes `k` ticks after which it goes on, in `e`; each of
them runs an executor once, and after the tick that it is to move on in it goes on in an executor
made anew. If there are as many as the limit allows, it ends there; if not, it ends in the next
tick, because the entry returns or for an error. The ticks are said with their numbers, each of
them once. A snapshot is written exactly if all ticks have been made, one is asked for, and `e` is
paused; it is the whole memory of `e`, and nothing else. If `e` is not paused, the run fails.

For want of machine steps, or of ticks to be followed, there is no end; but for those there always
is, and no tick beyond the limit is waited for. -/
theorem tick_limit_respected (hlimit : s.maxTicks = some n) (hpos : 0 < n) :
    (∀ failure said, (s.prepare fuel w).run [] = some (.error failure, said) →
      (s.run fuel w).run [] = some (.error failure, said) ∧ ticksSaid said = []) ∧
    ∀ p before, (s.prepare fuel w).run [] = some (.ok p, before) → ∃ fresh calls,
      create fuel p.runtime p.artifact = some (.ok fresh, calls) ∧
      (∀ result said, (s.run fuel w).run [] = some (result, said) →
        (ticksSaid said).length ≤ n ∧ ∃ k e, k ≤ n ∧ Rounds fuel s fresh p.executor k e ∧
          Stop fuel s fresh n k e result (ticksSaid said) ∧
          ∀ write, (∃ ending, result = .ok ending ∧ ending.write? = some write) ↔
            k = n ∧ ∃ path, s.snapshot = some path ∧ e.isPaused = true ∧
              write = ⟨path, e.memory.bytes, [.wrote e.memory.bytes.size path]⟩) ∧
      ((s.run fuel w).run [] = none → ∃ k e, k < n ∧
        Rounds fuel s fresh p.executor k e ∧ (e.run fuel s.gas = none ∨ k = fuel)) := by
  refine ⟨fun failure said hprepare => ⟨?_, ?_⟩, fun p before hprepare => ?_⟩
  · exact run_bind_of_error hprepare
  · exact tickless_prepare _ _ _ hprepare
  obtain ⟨hstart, fresh, calls, hcreate⟩ := prepare_eq_ok hprepare
  have hrun : (s.run fuel w).run [] = (s.follow fuel fuel p).run before :=
    run_bind_of_ok hprepare
  have hrounds : Rounds fuel s fresh p.executor p.ticks p.executor := hstart ▸ .start
  have hsaid : ticksSaid before = pausedTicks p.ticks := by
    rw [tickless_prepare _ _ _ hprepare, hstart]
    rfl
  have hfollowed := followed_follow hlimit hcreate fuel rfl rfl hrounds (hstart ▸ hpos) hsaid
  rw [← hrun, hstart, Nat.zero_add] at hfollowed
  refine ⟨fresh, calls, hcreate, fun result said h => ?_, fun h => ?_⟩
  · rw [h] at hfollowed
    cases hfollowed with
    | @stopped k e _ _ hmade hstop =>
      have hopen : k = n → e.faulted = false := fun hall => hmade.unfaulted (hall ▸ hpos)
      exact ⟨hstop.length_le, k, e, hstop.le, hmade, hstop, hstop.write_iff hopen⟩
  · rw [h] at hfollowed
    cases hfollowed with
    | @unended k e hmade hbelow hunended => exact ⟨k, e, hbelow, hmade, hunended⟩

/-- With a limit of 1, what pauses in the first tick. -/
theorem tick_limit_respected_idle : ∃ fresh e,
    Rounds 60 (idleSettings 1 (some 1)) fresh (idle 10 (idleRuntime 1 (some 1)) .standard) 1 e ∧
    Stop 60 (idleSettings 1 (some 1)) fresh 1 1 e (.ok (.save "state" e.memory.bytes))
      [(1, false)] ∧ e.isPaused = true ∧ e.memory.bytes = (idleSaved idlePage).bytes := by
  have hlimit : (idleSettings 1 (some 1)).maxTicks = some 1 := rfl
  have hpos : 0 < 1 := by decide
  obtain ⟨fresh, calls, -, hends, -⟩ := (@tick_limit_respected 60 1 (idleSettings 1 (some 1))
    idleWorld hlimit hpos).2 _ _ (prepare_idle 1 (some 1) 60)
  obtain ⟨-, k, e, -, hrounds, hstop, hwrite⟩ := hends _ _ run_idle_short
  obtain ⟨rfl, path, -, hpaused, heq⟩ := (hwrite _).1 ⟨_, rfl, rfl⟩
  have hbytes : e.memory.bytes = (idleSaved idlePage).bytes := (congrArg Write.contents heq).symm
  rw [← hbytes] at hstop
  exact ⟨fresh, e, hrounds, hstop, hpaused, hbytes⟩

/-- No run is at the limit of no ticks: it is one without a limit. -/
theorem run_limit_zero (h : s.maxTicks = some 0) :
    s.run fuel w = { s with maxTicks := none }.run fuel w := by
  have hturn : ∀ (p : Progress) e, s.turn { p with executor := e, ticks := p.ticks + 1 } =
      { s with maxTicks := none }.turn { p with executor := e, ticks := p.ticks + 1 } := by
    intro p e
    unfold turn
    rw [h, if_neg (by simp), if_neg (by simp)]
  have htick : ∀ p, s.tick fuel p = { s with maxTicks := none }.tick fuel p := by
    intro p
    rw [tick_eq, tick_eq]
    simp only [hturn]
    rfl
  have hfollow : ∀ left p,
      s.follow fuel left p = { s with maxTicks := none }.follow fuel left p := by
    intro left
    induction left with
    | zero => exact fun p => rfl
    | succ left ih =>
      intro p
      simp only [follow, htick, ih]
  have hprepare : s.prepare fuel w = { s with maxTicks := none }.prepare fuel w := rfl
  unfold run
  simp only [hprepare, hfollow]

/-- So a tick is made although none is allowed. -/
theorem limit_zero_ignored : (idleSettings 10000 (some 0)).maxTicks = some 0 ∧
    ((idleSettings 10000 (some 0)).run 60 idleWorld).run [] = some (.ok .done, [.finished 1]) ∧
    ticksSaid [.finished 1] = [(1, true)] :=
  ⟨rfl, run_idle_enough (some 0), rfl⟩

end

end RunSettings

end MeteredWasm.CommandLine
