import MeteredWasm.Proofs.Session.IdleSessions

/-!
# An executor that returns once

A module whose entry divides by a global, which it clears then: called once more, it comes to a trap.
There is one call of the hook in it, in front of all that; so the functions that unwind and rewind
have nothing to write down, and tell by a global of their own what they are at (`onceUnwound`). With
them the module keeps to the contract (`captured_once`).
-/

set_option autoImplicit false

namespace MeteredWasm

open Wasm Machine Metering Linking Suspension

/-! ## The module -/

/-- What the entry does. -/
def onceWork : List Operator :=
  [.i32Const 1, .globalGet 0, .numeric (.intBinary .w32 .divU), .drop, .i32Const 0, .globalSet 0,
    .endMark]

def onceModule : Module :=
  ⟨[.types [.plain ⟨[], []⟩], .functions [0], .memories [⟨⟨1, none⟩, false, false, none⟩],
    .globals [⟨⟨.i32, true, false⟩, [.i32Const 1]⟩], .exports [⟨"entry", .func, 0⟩],
    .code [⟨[], onceWork⟩]]⟩

def onceSummary : Summary :=
  ⟨[⟨[], []⟩], [], [0], [⟨"entry", .func, 0⟩], [⟨⟨1, none⟩, false, false⟩], false, [], none⟩

/-- The same, metered: every operator costs 1. -/
def onceMetered : Module :=
  ⟨[.types [.plain ⟨[], []⟩, hookTypeEntry], .imports [⟨hookModule, hookName, .func 1⟩],
    .functions [0], .memories [⟨⟨1, none⟩, false, false, none⟩],
    .globals [⟨⟨.i32, true, false⟩, [.i32Const 1]⟩],
    .exports [⟨"entry", .func, 1⟩, ⟨"memory", .memory, 0⟩],
    .code [⟨[], [.i32Const 7, .call 0] ++ onceWork⟩]]⟩

/-- The entry, which returns behind the hook while the instance unwinds. -/
def onceCode : List Operator :=
  [.i32Const 7, .call 0, .globalGet 1, .ifThen .empty, .ret, .endMark] ++ onceWork

/-- Notes what the instance is at. -/
def onceNote (state : UInt32) : List Operator := [.i32Const state, .globalSet 1, .endMark]

/-- The module once more, able to unwind. -/
def onceUnwound : Module :=
  ⟨[.types [.plain ⟨[], []⟩, hookTypeEntry], .imports [⟨hookModule, hookName, .func 1⟩],
    .functions [0, 1, 0, 1, 0], .memories [⟨⟨1, none⟩, false, false, none⟩],
    .globals [⟨⟨.i32, true, false⟩, [.i32Const 1]⟩, ⟨⟨.i32, true, false⟩, [.i32Const 0]⟩],
    .exports [⟨"entry", .func, 1⟩, ⟨"memory", .memory, 0⟩, ⟨startUnwind, .func, 2⟩,
      ⟨stopUnwind, .func, 3⟩, ⟨startRewind, .func, 4⟩, ⟨stopRewind, .func, 5⟩],
    .code [⟨[], onceCode⟩, ⟨[], onceNote 1⟩, ⟨[], onceNote 0⟩, ⟨[], onceNote 2⟩, ⟨[], onceNote 0⟩]]⟩

/-- A pass for this module alone. -/
def oncePass : Suspension.Pass :=
  Suspension.Pass.only (fun _ _ => .ok onceUnwound.encode) onceMetered.encode

def onceArtifact : Artifact :=
  ⟨onceUnwound.encode, "entry", ⟨⟨1, none⟩, false, false⟩, some "memory", .standard⟩

theorem valid_once : Validation.validate? .sandbox onceModule.encode = some onceModule := by
  decide +kernel

theorem decoded_once : Module.decode? .full onceMetered.encode = some onceMetered := by
  decide +kernel

theorem valid_onceUnwound : Validation.validate? .engine onceUnwound.encode = some onceUnwound := by
  decide +kernel

theorem memoryExportName_once (order : ExportOrder) :
    memoryExportName order onceSummary ⟨⟨1, none⟩, false, false⟩ = some "memory" := by
  have hexports : order.1 onceSummary.exports = [⟨"entry", .func, 0⟩] :=
    List.perm_singleton.1 (order.2 _)
  rw [memoryExportName, hexports]
  rfl

theorem instrumented_once : Instrumented oncePass .written .standard (.constant 1) onceModule.encode
    onceSummary onceModule onceMetered onceArtifact where
  summary := by decide +kernel
  check := by decide +kernel
  valid := valid_once
  metered := by
    have hadded : Instrument.addedMemoryExport .written onceSummary onceArtifact.memory =
        some "memory" := memoryExportName_once .written
    rw [hadded]
    decide +kernel
  lengths := by decide +kernel
  captured := Suspension.Pass.only_self
  exports := by decide +kernel
  memoryExport := (memoryExportName_once .written).symm
  entry := rfl
  controlBlock := rfl

/-- What can be linked of the module is still there when it can unwind. -/
theorem kept_once : Kept onceMetered onceUnwound where
  imports := .cons ⟨rfl, rfl, fun h => nomatch h⟩ .nil
  exports := by decide
  controls := by decide
  memory provided ceiling := by
    change ((([⟨⟨1, none⟩, false, false, none⟩] : List MemoryType).mapM
      (definedMemory? ceiling)).bind _).bind _ = ((([⟨⟨1, none⟩, false, false, none⟩] :
        List MemoryType).mapM (definedMemory? ceiling)).bind _).bind _
    cases ([⟨⟨1, none⟩, false, false, none⟩] : List MemoryType).mapM (definedMemory? ceiling) with
    | none => rfl
    | some defined => rfl
  starts _ := rfl

theorem toBinary_once : Instrument.toBinary? onceModule.encode = some onceModule.encode := by
  decide +kernel

/-! ## The two instances -/

/-- An instance of the module as it has been metered. -/
def oncePlain (hardware : Hardware) : Instance where
  types := (onceMetered.types.map TypeEntry.type).toArray
  functions := #[.hook, .code ⟨[], []⟩ [] ([.i32Const 7, .call 0] ++ onceWork)]
  relaxed := hardware.relaxed
  controls := none
  controlBlock := .standard
  blockMemory := 0
  maxDepth := hardware.maxDepth

def onceInstance (hardware : Hardware) : Instance where
  types := (onceUnwound.types.map TypeEntry.type).toArray
  functions := #[.hook, .code ⟨[], []⟩ [] onceCode, .code ⟨[.i32], []⟩ [] (onceNote 1),
    .code ⟨[], []⟩ [] (onceNote 0), .code ⟨[.i32], []⟩ [] (onceNote 2),
    .code ⟨[], []⟩ [] (onceNote 0)]
  relaxed := hardware.relaxed
  controls := some ⟨2, 3, 4, 5⟩
  controlBlock := .standard
  blockMemory := 0
  maxDepth := hardware.maxDepth

/-- Storage of the metered module: its memory, and whether it may return. -/
def onceStorage (m : Memory) (left : Bool) : Storage :=
  ⟨[m], [], [.i32 (if left then 1 else 0)], [], []⟩

/-- The same, with what the instance is at. -/
def onceNoted (m : Memory) (left : Bool) (state : BitVec 32) : Storage :=
  ⟨[m], [], [.i32 (if left then 1 else 0), .i32 state], [], []⟩

/-- The stack at the hook. -/
def onceHeld : Thread := ⟨.give [], [.activation ⟨1, 0, [], [], [], onceWork⟩], 1⟩

def onceWaiting : Thread := ⟨.give [], [.activation ⟨1, 0, [], [], [], onceCode.drop 2⟩], 1⟩

section
variable {a : Artifact} {imports : Imports} {ceiling : UInt64} {hardware hardware' : Hardware}
  {p p' : Prepared}

/-- Both modules are linked with the same page. -/
theorem once_linked (hblock : a.controlBlock = .standard)
    (h : instantiate? a imports ceiling hardware onceMetered = some p)
    (h' : instantiate? a imports ceiling hardware' onceUnwound = some p')
    (hone : p'.storage.memories.length = 1) :
    ∃ m : Memory, m.size = pageSize ∧ p.instance_ = oncePlain hardware ∧
      p.storage = onceStorage m true ∧ p'.module = onceUnwound ∧
      p'.instance_ = { onceInstance hardware' with controls := none } ∧
      p'.storage = onceNoted m true 0 := by
  obtain ⟨wasm, name, memory, memoryExport, block⟩ := a
  obtain rfl : block = .standard := hblock
  obtain ⟨imported, defined, st₀, st, -, himported, hdefined, hempty, hfill, rfl⟩ :=
    instantiate_eq_some.1 h
  obtain ⟨imported', defined', st₀', st', -, himported', hdefined', hempty', hfill', rfl⟩ :=
    instantiate_eq_some.1 h'
  obtain rfl : [Function.hook] = imported := Option.some.inj himported
  obtain rfl : [Function.hook] = imported' := Option.some.inj himported'
  cases hdefined
  cases hdefined'
  obtain rfl := Option.some.inj (hempty.symm.trans hempty')
  obtain ⟨page, hsize, rfl⟩ := @emptyStorage_idle 10 _ _ _ hempty'
  cases hfill
  cases hfill'
  have hprovided : providedMemory memory ceiling = none := by
    cases hprovided : providedMemory memory ceiling with
    | none => rfl
    | some m =>
      rw [hprovided] at hone
      cases hone
  rw [hprovided]
  exact ⟨page, hsize, rfl, rfl, rfl, rfl, rfl⟩

end

/-! ## What they do -/

section
variable {depth : Nat} {relaxed : RelaxedResults} {m : Memory} {left : Bool} {state : BitVec 32}
  {gas : Int} {paused : Bool} {calls : List HostCall} {signals : List Signal}

/-- As it has been metered, the entry comes to the hook. -/
theorem once_plain_charges : walk ((oncePlain ⟨depth, relaxed⟩).deep 1) 3
    ⟨⟨onceStorage m left, gas, paused, calls, signals⟩, .call 1 []⟩ =
    some ⟨⟨onceStorage m left, gas, paused, calls, signals⟩,
      ⟨.invoke 0 [.i32 7], onceHeld.frames, 1⟩⟩ := rfl

/-- Behind the hook it returns once, -/
theorem once_plain_returns : walk ((oncePlain ⟨depth, relaxed⟩).deep 1) 8
    ⟨⟨onceStorage m true, gas, paused, calls, signals⟩, onceHeld⟩ =
    some ⟨⟨onceStorage m false, gas, paused, calls, signals⟩, ⟨.give [], [], 0⟩⟩ := rfl

/-- The activation at the division. -/
def onceDividing (code : List Operator) : Activation :=
  ⟨1, 0, [], [.i32 0, .i32 1], [], code⟩

/-- and divides by zero then. -/
theorem once_plain_divides : walk ((oncePlain ⟨depth, relaxed⟩).deep 1) 3
    ⟨⟨onceStorage m false, gas, paused, calls, signals⟩, onceHeld⟩ =
    some ⟨⟨onceStorage m false, gas, paused, calls, signals⟩,
      ⟨.run (onceDividing (onceWork.drop 2)), [], 0⟩⟩ := rfl

theorem once_charges : walk (onceInstance ⟨depth + 1, relaxed⟩) 3
    ⟨⟨onceNoted m left state, gas, paused, calls, signals⟩, .call 1 []⟩ =
    some ⟨⟨onceNoted m left state, gas, paused, calls, signals⟩,
      ⟨.invoke 0 [.i32 7], onceWaiting.frames, 1⟩⟩ := rfl

theorem once_returns : walk (onceInstance ⟨depth, relaxed⟩) 10
    ⟨⟨onceNoted m true 0, gas, paused, calls, signals⟩, onceWaiting⟩ =
    some ⟨⟨onceNoted m false 0, gas, paused, calls, signals⟩, ⟨.give [], [], 0⟩⟩ := rfl

theorem once_divides : walk (onceInstance ⟨depth, relaxed⟩) 5
    ⟨⟨onceNoted m false 0, gas, paused, calls, signals⟩, onceWaiting⟩ =
    some ⟨⟨onceNoted m false 0, gas, paused, calls, signals⟩,
      ⟨.run (onceDividing (onceWork.drop 2)), [], 0⟩⟩ := rfl

/-- Told to unwind in the hook, the instance leaves its entry. -/
theorem once_unwinds : walk (onceInstance ⟨depth + 3, relaxed⟩) 9
    ⟨⟨onceNoted m left state, gas, false, calls, signals⟩,
      ⟨.invoke 2 [.ofWord 16], .hook .pausing :: onceWaiting.frames, 2⟩⟩ =
    some ⟨⟨onceNoted m left 1, gas, true, calls, signals⟩, ⟨.give [], [], 0⟩⟩ := rfl

theorem once_stops : walk (onceInstance ⟨depth + 1, relaxed⟩) 4
    ⟨⟨onceNoted m left state, gas, paused, calls, signals⟩, .call 3 []⟩ =
    some ⟨⟨onceNoted m left 0, gas, paused, calls, signals⟩, ⟨.give [], [], 0⟩⟩ := rfl

theorem once_starts : walk (onceInstance ⟨depth + 1, relaxed⟩) 4
    ⟨⟨onceNoted m left state, gas, paused, calls, signals⟩, .call 4 [.ofWord 16]⟩ =
    some ⟨⟨onceNoted m left 2, gas, paused, calls, signals⟩, ⟨.give [], [], 0⟩⟩ := rfl

/-- Told to stop rewinding in the hook, it goes on there. -/
theorem once_resumes : walk (onceInstance ⟨depth + 3, relaxed⟩) 5
    ⟨⟨onceNoted m left state, gas, true, calls, signals⟩,
      ⟨.invoke 5 [], .hook .resuming :: onceWaiting.frames, 2⟩⟩ =
    some ⟨⟨onceNoted m left 0, gas, false, calls, signals⟩, onceWaiting⟩ := rfl

end

/-! ## The contract -/

/-- The module beside itself as it has been metered. -/
def oncePairing : Pairing where
  func := id
  ready st st' := ∃ m left, 28 ≤ m.size ∧ st = onceStorage m left ∧ st' = onceNoted m left 0
  running st t st' t' := ∃ m left, 28 ≤ m.size ∧ st = onceStorage m left ∧ t = onceHeld ∧
    st' = onceNoted m left 0 ∧ t' = onceWaiting
  unwound st t st' := ∃ m left, 28 ≤ m.size ∧ st = onceStorage m left ∧ t = onceHeld ∧
    st' = onceNoted (idleBlock m) left 1
  held st t st' := ∃ m left, 28 ≤ m.size ∧ st = onceStorage m left ∧ t = onceHeld ∧
    st' = onceNoted m left 0
  rewinding st t st' := ∃ m left, 28 ≤ m.size ∧ st = onceStorage m left ∧ t = onceHeld ∧
    st' = onceNoted m left 2
  rebuilt st t st' t' := ∃ m left, 28 ≤ m.size ∧ st = onceStorage m left ∧ t = onceHeld ∧
    st' = onceNoted m left 2 ∧ t' = onceWaiting

section
variable {depth depth' : Nat} {relaxed : RelaxedResults} {sb sb' : Sandbox}

theorem once_enters (hready : oncePairing.ready sb.storage sb'.storage)
    (habreast : oncePairing.Abreast sb sb') :
    oncePairing.Tracks (oncePlain ⟨depth, relaxed⟩) (onceInstance ⟨depth', relaxed⟩)
      ⟨sb, .call 1 []⟩ ⟨sb', .call 1 []⟩ := by
  obtain ⟨m, left, hroom, hst, hst'⟩ := hready
  obtain ⟨st, gas, paused, calls, signals⟩ := sb
  obtain ⟨st', gas', paused', calls', signals'⟩ := sb'
  cases hst
  cases hst'
  have hplain := glides_of_walk (@once_plain_charges depth relaxed m left gas paused calls signals)
  have hstops (s : State) (henters : EntersHook ((oncePlain ⟨depth, relaxed⟩).deep 1) s.thread) :
      Stops ((oncePlain ⟨depth, relaxed⟩).deep 1) s :=
    ⟨.inl henters, fun hexhausts => hexhausts.not_enters henters⟩
  cases depth' with
  | zero =>
    have hfull : Exhausts (onceInstance ⟨0, relaxed⟩)
        ⟨⟨onceNoted m left 0, gas', paused', calls', signals'⟩, .call 1 []⟩ :=
      exhausts_of_full rfl (Nat.le_refl 0)
    exact Pairing.tracks_of_meets hplain (hstops _ ⟨0, _, rfl, rfl⟩) .refl hfull.halts (.inl hfull)
  | succ depth' =>
    refine Pairing.tracks_of_meets hplain (hstops _ ⟨0, _, rfl, rfl⟩) (glides_of_walk once_charges)
      (.inl ⟨0, _, rfl, rfl⟩) (.inr ?_)
    exact .hook rfl rfl habreast ⟨m, left, hroom, rfl, rfl, rfl, rfl⟩

/-- Behind the hook both return, or both come to the trap. -/
theorem once_goesOn {t t' : Thread} (hrunning : oncePairing.running sb.storage t sb'.storage t')
    (habreast : oncePairing.Abreast sb sb') :
    oncePairing.Tracks (oncePlain ⟨depth, relaxed⟩) (onceInstance ⟨depth', relaxed⟩)
      ⟨sb, t⟩ ⟨sb', t'⟩ := by
  obtain ⟨m, left, hroom, hst, rfl, hst', rfl⟩ := hrunning
  obtain ⟨st, gas, paused, calls, signals⟩ := sb
  obtain ⟨st', gas', paused', calls', signals'⟩ := sb'
  cases hst
  cases hst'
  cases left with
  | true =>
    refine Pairing.tracks_of_meets (n := 1) (glides_of_walk once_plain_returns)
      ⟨.inr ⟨_, rfl⟩, roomy_of_finished rfl⟩ (glides_of_walk once_returns) (.inr ⟨_, rfl⟩) (.inr ?_)
    exact .finished rfl rfl ⟨habreast.plain, habreast.captured, habreast.calls⟩
      ⟨m, false, hroom, rfl, rfl⟩
  | false =>
    refine Pairing.tracks_of_meets (n := 1) (glides_of_walk once_plain_divides)
      ⟨.inr ⟨_, rfl⟩, roomy_of_failed rfl nofun⟩ (glides_of_walk once_divides) (.inr ⟨_, rfl⟩)
      (.inr ?_)
    exact .failed (fun ⟨_, _, hrun, _⟩ => nomatch hrun) (fun ⟨_, _, hrun, _⟩ => nomatch hrun) rfl rfl
      habreast.calls

end

/-- The global says whether the module may return once more. -/
theorem left_of_globals {left left' : Bool} {rest rest' : List Value}
    (h : (Value.i32 (if left then 1 else 0) :: rest)[0]? =
      (Value.i32 (if left' then 1 else 0) :: rest')[0]?) : left = left' := by
  have hword : (if left then 1 else 0 : BitVec 32) = if left' then 1 else 0 :=
    Value.i32.inj (Option.some.inj h)
  cases left <;> cases left' <;> first | rfl | cases hword

/-- The laws hold of the module. -/
theorem once_captures {depth depth' : Nat} {relaxed : RelaxedResults} :
    oncePairing.Captures (oncePlain ⟨depth, relaxed⟩) (onceInstance ⟨depth', relaxed⟩) (1, 1)
      ⟨2, 3, 4, 5⟩ 1 1 where
  shows := by
    rintro st st' ⟨m, left, -, rfl, rfl⟩
    rfl
  settled := by
    rintro st st' st₁' memories ⟨m, left, -, rfl, rfl⟩ ⟨m₁, left₁, -, hst, rfl⟩
    obtain rfl : left = left₁ := left_of_globals (congrArg (·.globals[0]?) hst)
    exact ⟨rfl, fun _ _ _ => rfl, rfl, rfl⟩
  moves := by
    rintro st t st' st₀ st₀' ⟨m, left, hroom, rfl, rfl, rfl⟩ ⟨m₀, left₀, -, rfl, rfl⟩ -
    exact ⟨m, left₀, hroom, rfl, rfl, rfl⟩
  restores := by
    rintro st t st' st₀ st₀' ⟨m, left, hroom, rfl, rfl, rfl⟩ ⟨m₀, left₀, -, rfl, rfl⟩ hbeside
    obtain rfl : left = left₀ := left_of_globals (hbeside.globals 0 (by decide) (by decide))
    exact ⟨m, left, hroom, rfl, rfl, rfl⟩
  enters := once_enters
  goesOn := once_goesOn
  startsUnwind := by
    rintro st t sb sb₁ t' ⟨m, left, hroom, rfl, rfl, hst, rfl⟩ hp hwrite s
    obtain ⟨st', gas, paused, calls, signals⟩ := sb
    cases hst
    cases hp
    obtain ⟨-, rfl⟩ := write_eq_ok_iff.1 hwrite
    by_cases hdepth : depth' ≤ 2
    · exact .inl (exhausts_of_full rfl hdepth).breaks
    · obtain ⟨n, rfl⟩ : ∃ n, depth' = n + 3 := ⟨depth' - 3, by omega⟩
      exact .inr ⟨_, ⟨[], 0, glides_of_walk once_unwinds⟩, m, left, hroom, rfl, rfl, rfl⟩
  stopsUnwind := by
    rintro st t sb ⟨m, left, hroom, rfl, rfl, hst⟩ hp -
    obtain ⟨st', gas, paused, calls, signals⟩ := sb
    cases hst
    cases depth' with
    | zero => exact .inl (exhausts_of_full rfl (Nat.le_refl 0)).breaks
    | succ n =>
      refine .inr ⟨_, ⟨[], 0, glides_of_walk once_stops⟩, ⟨idleBlock m, left, ?_, rfl, rfl, rfl⟩, ?_⟩
      · rwa [size_idleBlock hroom]
      · exact .single (agrees_idleBlock rfl rfl hroom)
  startsRewind := by
    rintro st t sb ⟨m, left, hroom, rfl, rfl, hst⟩ hp s
    obtain ⟨st', gas, paused, calls, signals⟩ := sb
    cases hst
    cases depth' with
    | zero => exact .inl ⟨s, .refl, exhausts_of_full rfl (Nat.le_refl 0)⟩
    | succ n =>
      exact .inr ⟨_, ⟨[], 0, glides_of_walk once_starts⟩, m, left, hroom, rfl, rfl, rfl⟩
  reenters := by
    rintro st t sb ⟨m, left, hroom, rfl, rfl, hst⟩ hp
    obtain ⟨st', gas, paused, calls, signals⟩ := sb
    cases hst
    cases depth' with
    | zero => exact .inl ⟨_, .refl, exhausts_of_full rfl (Nat.le_refl 0)⟩
    | succ n =>
      exact .inr ⟨_, 0, 7, _, 1, glides_of_walk once_charges, rfl, m, left, hroom, rfl, rfl, rfl,
        rfl⟩
  stopsRewind := by
    rintro st t sb t' ⟨m, left, hroom, rfl, rfl, hst, rfl⟩ hp s
    obtain ⟨st', gas, paused, calls, signals⟩ := sb
    cases hst
    cases hp
    by_cases hdepth : depth' ≤ 2
    · exact .inl ⟨s, .refl, exhausts_of_full rfl hdepth⟩
    · obtain ⟨n, rfl⟩ : ∃ n, depth' = n + 3 := ⟨depth' - 3, by omega⟩
      exact .inr ⟨_, glides_of_walk once_resumes, ⟨m, left, hroom, rfl, rfl, rfl, rfl⟩,
        .refl _ _⟩

/-- The module has been given what it takes to have its stack captured. -/
theorem captured_once : Captured onceMetered onceUnwound .standard (1, 1) := by
  intro a imports ceiling relaxed controls name entry entry' hblock hhosts hentry hentry'
  refine ⟨oncePairing, fun depth depth' p p' hp hp' hone hcontrols htype => ?_⟩
  obtain ⟨m, hsize, hplain, hst, hmodule, hinstance, hst'⟩ := once_linked hblock hp hp' hone
  obtain ⟨m', i, st⟩ := p'
  cases hmodule
  cases hinstance
  obtain rfl : controls = ⟨2, 3, 4, 5⟩ := (Except.ok.inj hcontrols).symm
  obtain ⟨rfl, rfl⟩ : entry = 1 ∧ entry' = 1 := by
    by_cases hname : "entry" = name
    · subst hname
      exact ⟨(Option.some.inj hentry).symm, (Option.some.inj hentry').symm⟩
    · have hexports : onceMetered.exports = [⟨"entry", .func, 1⟩, ⟨"memory", .memory, 0⟩] := rfl
      simp [exportedFunc?, hexports, hname] at hentry
  rw [hplain, hst, hst']
  refine ⟨once_captures, m, true, ?_, rfl, rfl⟩
  rw [hsize]
  decide

/-- The pass promises no more. -/
theorem captures_oncePass (request : Request) : oncePass.Captures request .standard fun _ => (1, 1) :=
  Pass.captures_only decoded_once rfl valid_onceUnwound captured_once

theorem keeps_oncePass (request : Request) : oncePass.Keeps request :=
  @Pass.keeps_only _ request _ _ _ _ decoded_once rfl valid_onceUnwound kept_once

/-! ## The executor -/

namespace Executor

/-- The module, as it is linked if it is not metered. -/
def onceOriginal : Prepared :=
  ⟨onceModule, ⟨#[⟨[], []⟩], #[.code ⟨[], []⟩ [] onceWork], shallow.relaxed, none, .standard, 0, 10⟩,
    onceStorage idlePage true⟩

theorem sourced_once : Sourced oncePass .standard (.constant 1) onceArtifact .empty 256
    shallow.relaxed onceModule onceOriginal 0 := by
  have hinstrument : instrumentWith oncePass .written .standard (.constant 1) onceModule.encode =
      .ok onceArtifact := instrument_eq_ok.2 ⟨_, _, _, _, toBinary_once, instrumented_once⟩
  have hlinked : instantiate? onceArtifact .empty 256 ⟨10, shallow.relaxed⟩ onceModule =
      some onceOriginal := rfl
  exact .of toBinary_once valid_once rfl hinstrument hlinked

/-- An executor of it, with the gas and the global that it has, and what it is at. -/
def once (left : Bool) (m : Memory) (gas : Int) (paused : Bool) (signals : List Signal) : Executor :=
  ⟨onceInstance (hardware shallow), 1, ⟨onceNoted m left 0, gas, paused, [], signals⟩, false⟩

theorem create_once : create 1 shallow onceArtifact .empty 256 =
    some (.ok (once true idlePage 0 false []), []) := by
  have hp : instantiate? onceArtifact .empty 256 (hardware shallow) onceUnwound =
      some ⟨onceUnwound, { onceInstance (hardware shallow) with controls := none },
        onceNoted idlePage true 0⟩ := rfl
  refine create_of_valid valid_onceUnwound rfl rfl hp rfl rfl ?_ rfl rfl
  change ControlBlock.requiredMemory .standard ≤ idlePage.size
  rw [size_idlePage]
  decide

/-- Its first run returns. -/
theorem once_run : (once true idlePage 0 false []).run 60 7 =
    some (.ok true, once false idlePage 0 false []) := by
  have hcharged := @step_charged (onceInstance (hardware shallow))
    ⟨⟨onceNoted idlePage true 0, 7, false, [], []⟩, ⟨.invoke 0 [.i32 7], onceWaiting.frames, 1⟩⟩
    0 7 rfl rfl rfl (by decide)
  have hentered : Returns (onceInstance (hardware shallow)) 60 1 []
      ⟨onceNoted idlePage true 0, 7, false, [], []⟩ ⟨onceNoted idlePage false 0, 0, false, [], []⟩ :=
    ⟨[], (run_of_walk (@once_charges 9 _ _ _ _ _ _ _ _) 57).trans ((run_succ_of_next hcharged 56).trans
      (run_of_walk once_returns 46))⟩
  exact run_of_ownTick rfl rfl (by decide) (.returned rfl hentered rfl)

/-- The next one pauses, if it is not given what it is charged. -/
theorem once_run_short : (once false idlePage 0 false []).run 60 1 =
    some (.ok false, once false (idleBlock idlePage) (-6) true [.stopUnwind, .startUnwind 16]) := by
  have hpause := @step_pausing (onceInstance (hardware shallow))
    ⟨⟨onceNoted idlePage false 0, 1, false, [], []⟩, ⟨.invoke 0 [.i32 7], onceWaiting.frames, 1⟩⟩
    ⟨2, 3, 4, 5⟩ 0 7 rfl rfl rfl rfl (by decide)
    (blockFits_of_memory (m := idlePage) rfl (holds_idle roomy_idlePage))
  have hentered : Returns (onceInstance (hardware shallow)) 60 1 []
      ⟨onceNoted idlePage false 0, 1, false, [], []⟩
      ⟨onceNoted (idleBlock idlePage) false 1, -6, true, [], [.startUnwind 16]⟩ :=
    ⟨[], (run_of_walk (@once_charges 9 _ _ _ _ _ _ _ _) 57).trans ((run_succ_of_next hpause 56).trans
      (run_of_walk (@once_unwinds 7 _ _ _ _ _ _ _) 47))⟩
  have hposition := @position_of_load (onceInstance (hardware shallow))
    ⟨onceNoted (idleBlock idlePage) false 1, -6, true, [], [.startUnwind 16]⟩ (idleBlock idlePage) 24
    rfl (load_idleBlock roomy_idlePage).1
  have hroom : ¬(1024 : UInt32) < 24 := by decide
  exact run_of_ownTick rfl rfl (by decide) (.captured rfl hentered rfl (hposition ▸ hroom)
    ⟨[], run_of_walk (@once_stops 9 _ _ _ _ _ _ _ _) 56⟩)

section
variable {m : Memory} {left : Bool} {gas : Int} {signals : List Signal}

theorem once_rewound : Rewound (onceInstance (hardware shallow)) 60 4
    ⟨onceNoted m left 0, gas, true, [], signals⟩
    ⟨onceNoted m left 2, gas, true, [], .startRewind 16 :: signals⟩ :=
  ⟨[], run_of_walk (@once_starts 9 _ _ _ _ _ _ _ _) 56⟩

/-- Told to rewind, it comes to the hook and goes on there. -/
theorem once_goes (fuel : Nat) : Machine.run (onceInstance (hardware shallow)) (fuel + 9)
    ⟨⟨onceNoted m left 2, gas, true, [], signals⟩, .call 1 []⟩ =
    Machine.run (onceInstance (hardware shallow)) fuel
      ⟨⟨onceNoted m left 0, gas, false, [], .stopRewind :: signals⟩, onceWaiting⟩ := by
  have hresume : step (onceInstance (hardware shallow))
      ⟨⟨onceNoted m left 2, gas, true, [], signals⟩, ⟨.invoke 0 [.i32 7], onceWaiting.frames, 1⟩⟩ =
      .next ⟨⟨onceNoted m left 2, gas, true, [], .stopRewind :: signals⟩,
        ⟨.invoke 5 [], .hook .resuming :: onceWaiting.frames, 2⟩⟩ := rfl
  have hfuel : fuel + 9 = 3 + (5 + fuel + 1) := by omega
  rw [hfuel]
  exact (run_of_walk (@once_charges 9 _ _ _ _ _ _ _ _) _).trans ((run_succ_of_next hresume _).trans
    (run_of_walk (@once_resumes 7 _ _ _ _ _ _ _) fuel))

/-- It comes to the trap, -/
theorem once_traps {budget : Int} (hgas : 0 < topUp gas budget) : ∃ e,
    (once false m gas true signals).run 60 budget = some (.error (.trap .integerDivideByZero), e) :=
  ⟨_, run_of_entry_failed rfl rfl hgas once_rewound (call_eq_error.2 ((once_goes 51).trans
    (run_of_walk_failed once_divides rfl 45)))⟩

/-- unless it has not returned before. -/
theorem once_finishes {budget : Int} (hgas : 0 < topUp gas budget) : ∃ e,
    (once true m gas true signals).run 60 budget = some (.ok true, e) :=
  ⟨_, run_of_ownTick rfl rfl hgas (.returned once_rewound
    ⟨[], (once_goes 51).trans (run_of_walk once_returns 41)⟩ rfl)⟩

end

end Executor

end MeteredWasm
