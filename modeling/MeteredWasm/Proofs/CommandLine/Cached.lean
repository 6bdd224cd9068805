import MeteredWasm.Proofs.Artifact.Canonical
import MeteredWasm.Proofs.CommandLine.Loop
import MeteredWasm.Proofs.Session.Drivable

/-!
# Running what has been instrumented before

A module file that has been instrumented into an artifact need not be instrumented again: to run
the artifact is to run the module (`cached_run_agrees`). The artifact is made under the standard
ceiling on memory and run under another; that is no difference, because the ceiling decides
whether a module is instrumented and not what it becomes (`instrumentWith_ceiling`).

Where a memory is exported more than once, the name that an artifact notes for it is the one that is
met first, and exports are in no order. Two artifacts of a module may differ in this name, and in
nothing else (`Instrumented.unique`). As a module has only one memory, it is found under either.
-/

set_option autoImplicit false

namespace MeteredWasm

open Wasm Machine Metering Linking

/-! ## What an artifact depends on -/

/-- Whether a name is added for the memory, and which, is not up to the order of the exports. -/
theorem Instrument.addedMemoryExport_order (order order' : ExportOrder) (s : Summary)
    (memory : MemoryInfo) :
    addedMemoryExport order' s memory = addedMemoryExport order s memory := by
  have hadded (order : ExportOrder) (name : String) :
      addedMemoryExport order s memory = some name ↔ memory.isImported = false ∧
        (∀ e ∈ s.exports, e.kind ≠ .memory) ∧
          name = freeMemoryName s "memory" s.exports.length := by
    rw [(memoryNamed order s memory).added name]
    refine and_congr_right fun himported => and_congr_right fun hkind => ?_
    rw [memoryExportName_of_unexported himported hkind, Option.some_inj, eq_comm]
  exact Option.ext fun name => (hadded order' name).trans (hadded order name).symm

section
variable {pass : Suspension.Pass} {order order' : ExportOrder} {options options' : Options}
  {rules : Rules} {binary : Bytes} {s s' : Summary} {m m' n n' : Module} {a a' : Artifact}

/-- A module has one artifact for each entry, control block and table of costs, but for the name of
its memory. -/
theorem Instrumented.unique (h : Instrumented pass order options rules binary s m n a)
    (h' : Instrumented pass order' options' rules binary s' m' n' a')
    (hentry : options'.entry = options.entry)
    (hblock : options'.controlBlock = options.controlBlock)
    (hrequest : Instrument.request options' = Instrument.request options) :
    a' = { a with memoryExport := memoryExportName order' s a.memory } := by
  obtain rfl : s' = s := Except.ok.inj (h'.summary.symm.trans h.summary)
  obtain rfl : m' = m := Option.some.inj (h'.valid.symm.trans h.valid)
  have hmemory : a'.memory = a.memory := by
    have hmemories := (checked_of_check h.check).memories
    rw [(checked_of_check h'.check).memories] at hmemories
    exact List.singleton_inj.1 hmemories
  have hmetered : n' = n := by
    have hn' := h'.metered
    rw [hmemory, Instrument.addedMemoryExport_order order order', h.metered] at hn'
    exact (Option.some.inj hn').symm
  have hwasm : a'.wasm = a.wasm := by
    have hcaptured := h'.captured
    rw [hrequest, hmetered, h.captured] at hcaptured
    exact (Except.ok.inj hcaptured).symm
  have hexport := h'.memoryExport
  have hname : a'.entry = a.entry := by rw [h'.entry, h.entry, hentry]
  have hat : a'.controlBlock = a.controlBlock := by rw [h'.controlBlock, h.controlBlock, hblock]
  cases a
  cases a'
  simp_all only

/-- Executors of the one are executors of the other. -/
theorem Instrumented.create_agrees (h : Instrumented pass order options rules binary s m n a)
    (h' : Instrumented pass order' options' rules binary s' m' n' a')
    (hentry : options'.entry = options.entry)
    (hblock : options'.controlBlock = options.controlBlock)
    (hrequest : Instrument.request options' = Instrument.request options)
    (hkeeps : pass.Keeps (Instrument.request options)) (fuel : Nat) (r : Runtime)
    (imports : Imports) (ceiling : UInt64) :
    Executor.create fuel r a' imports ceiling = Executor.create fuel r a imports ceiling := by
  have hsame := h.unique h' hentry hblock hrequest
  have hprepare : Linking.prepare a' imports ceiling (Executor.hardware r) =
      Linking.prepare a imports ceiling (Executor.hardware r) := by
    rw [hsame]
    rfl
  unfold Executor.create
  rw [hprepare]
  cases hp : Linking.prepare a imports ceiling (Executor.hardware r) with
  | error error => rfl
  | ok p =>
    obtain ⟨-, m₁, hvalid, -, hlinked⟩ := prepare_eq_ok.1 hp
    obtain ⟨-, m₂, hvalid', -, hlinked'⟩ := prepare_eq_ok.1 (hprepare.trans hp)
    -- Each finds the memory under its own name, and both find memory 0.
    have hfound := h.findMemory_ok hvalid (h.kept hkeeps hvalid) hlinked
    have hfound' := h'.findMemory_ok hvalid' (h'.kept (hrequest ▸ hkeeps) hvalid') hlinked'
    have hattach (sandbox : Sandbox) :
        Executor.attach a' p sandbox = Executor.attach a p sandbox := by
      unfold Executor.attach
      rw [hfound, hfound', hsame]
      rfl
    simp only [hattach]

/-- The ceiling on memory decides only whether there is an artifact. -/
theorem instrumentWith_ceiling {source : Bytes} {ceiling ceiling' : UInt64}
    (h : instrumentWith pass order { options with memoryMaxPages := ceiling } rules source = .ok a)
    (h' : instrumentWith pass order' { options with memoryMaxPages := ceiling' } rules source =
      .ok a') :
    { a' with memoryExport := a.memoryExport } = a ∧ (order' = order → a' = a) := by
  obtain ⟨binary, s, m, n, hbinary, hinstrumented⟩ := instrument_eq_ok.1 h
  obtain ⟨binary', s', m', n', hbinary', hinstrumented'⟩ := instrument_eq_ok.1 h'
  obtain rfl : binary' = binary := Option.some.inj (hbinary'.symm.trans hbinary)
  have hsame := hinstrumented.unique hinstrumented' rfl rfl rfl
  refine ⟨by rw [hsame], ?_⟩
  rintro rfl
  rw [hsame, ← hinstrumented.memoryExport]

end

/-! ## Artifacts in files -/

namespace Artifact

/-- An artifact whose byte form is no longer than a number of eight bytes says has no part that
is. -/
theorem fits_of_length {a : Artifact} (h : a.encode.length < 2 ^ 64) : a.Fits := by
  simp only [encode, writeBlock, writeText, List.length_append] at h
  refine ⟨?_, ?_, fun name hname => ?_⟩
  · unfold BlockFits
    omega
  · unfold TextFits BlockFits
    omega
  · rw [Option.mem_def.1 hname] at h
    simp only [writeOption, writeText, writeBlock, List.length_cons, List.length_append] at h
    unfold TextFits BlockFits
    omega

theorem decode_encode_of_length {a : Artifact} (h : a.encode.length < 2 ^ 64) :
    decode a.encode = .ok a :=
  decode_eq_ok_iff.2 ⟨fits_of_length h, List.prefix_rfl⟩

end Artifact

namespace CommandLine

/-- What is written is the encoding of what the file is instrumented into. -/
theorem instrumentFile_eq_ok {w : World} {file output entry : String} {said lines : List Line}
    {write : Write} (h : (instrumentFile w file output entry).run said = some (.ok write, lines)) :
    ∃ bytes a, w.files file = some bytes ∧
      instrument w.pass w.order { Options.standard with entry } bytes.toList = .ok a ∧
      write = ⟨output, ⟨a.encode.toArray⟩, []⟩ := by
  unfold instrumentFile at h
  cases hfile : w.files file with
  | none =>
    rw [Script.readFile, hfile] at h
    cases h
  | some bytes =>
    rw [Script.readFile_eq hfile, pure_bind] at h
    cases hinstrument : instrument w.pass w.order { Options.standard with entry } bytes.toList with
    | error e =>
      rw [hinstrument] at h
      cases h
    | ok a =>
      rw [hinstrument] at h
      cases h
      exact ⟨bytes, a, rfl, hinstrument, rfl⟩

/-! ## Running -/

namespace RunSettings

/-- The same run, of an artifact in a file. -/
def cached (s : RunSettings) (file : String) : RunSettings := { s with file, artifact := true }

section
variable {fuel : Nat} {s : RunSettings} {w w' : World} {bytes bytes' : ByteArray}
  {a a' : Artifact} {output : String}

/-- A tick, and what a run does after it. -/
theorem follow_succ (ticks : Nat) (p : Progress) : s.follow fuel (ticks + 1) p = (do
    let ran ← advance fuel s p.executor
    if ran.1 then
      Script.say (.finished (p.ticks + 1))
      return .done
    Script.say (.paused (p.ticks + 1) ran.2.gas)
    let e ← move fuel s (p.ticks + 1) { p with executor := ran.2 }
    if s.maxTicks = some (p.ticks + 1) then
      match s.snapshot with
      | none => return .done
      | some path => return .save path (← capture e)
    s.follow fuel ticks { p with executor := e, ticks := p.ticks + 1 }) := by
  rw [follow, tick_eq, bind_assoc]
  refine bind_congr fun ran => ?_
  obtain ⟨finished, ran⟩ := ran
  cases finished with
  | true => rfl
  | false =>
    simp only [Bool.false_eq_true, if_false, bind_assoc]
    refine bind_congr fun _ => bind_congr fun e => ?_
    unfold turn
    by_cases hlimit : s.maxTicks = some (p.ticks + 1)
    · simp only [if_pos hlimit]
      cases s.snapshot with
      | none => rfl
      | some path => simp only [bind_assoc, pure_bind]
    · simp only [if_neg hlimit, pure_bind]

/-- A run goes on the same with any artifact that makes the same executors. -/
theorem follow_cached (hcreate : ∀ r, createExecutor fuel r a' = createExecutor fuel r a)
    (ticks : Nat) {p : Progress} (ha : p.artifact = a) :
    (s.cached output).follow fuel ticks { p with artifact := a' } = s.follow fuel ticks p := by
  induction ticks generalizing p with
  | zero => rfl
  | succ ticks ih =>
    have hmove (ran : Executor) :
        move fuel (s.cached output) (p.ticks + 1) ⟨p.runtime, a', ran, p.ticks⟩ =
          move fuel s (p.ticks + 1) { p with executor := ran } := by
      simp only [move, migrate, hcreate, ha]
      rfl
    have hnext (e : Executor) :
        (s.cached output).follow fuel ticks ⟨p.runtime, a', e, p.ticks + 1⟩ =
          s.follow fuel ticks { p with executor := e, ticks := p.ticks + 1 } :=
      @ih { p with executor := e, ticks := p.ticks + 1 } ha
    rw [follow_succ, follow_succ]
    simp only [hmove, hnext]
    rfl

/-- What comes before the first tick depends on the artifact only through the executor that is made,
and on the snapshot, if there is one. -/
theorem run_cached (hfile : w.files s.file = some bytes)
    (hread : s.readArtifact w bytes.toList = .ok a) (hfile' : w'.files output = some bytes')
    (hread' : Artifact.decode bytes'.toList = .ok a')
    (hresume : ∀ path, s.resume = some path → w'.files path = w.files path)
    (hrelaxed : w'.relaxed = w.relaxed)
    (hcreate : ∀ r, createExecutor fuel r a' = createExecutor fuel r a) :
    (s.cached output).run fuel w' = s.run fuel w := by
  have hdecoded : (s.cached output).readArtifact w' bytes'.toList = .ok a' := by
    show (Artifact.decode bytes'.toList).mapError Failure.artifact = .ok a'
    rw [hread']
    rfl
  have hruntime : (s.cached output).runtime w' = s.runtime w := by
    rw [runtime, runtime, hrelaxed]
    rfl
  have hsource : Script.readFile w'.files (s.cached output).file = pure bytes' :=
    Script.readFile_eq hfile'
  have hsnapshot : (s.cached output).resume = s.resume := rfl
  have hfollow (e : Executor) := @follow_cached fuel s a a' output hcreate fuel
    ⟨s.runtime w, a, e, 0⟩ rfl
  unfold run
  simp only [prepare_eq, Script.readFile_eq hfile, hsource, pure_bind, hread, hdecoded,
    Script.ofExcept, hcreate, hsnapshot, hruntime, bind_assoc]
  refine bind_congr fun e => ?_
  cases hpath : s.resume with
  | none => exact hfollow e
  | some path =>
    have hsame : Script.readFile w'.files path = Script.readFile w.files path := by
      rw [Script.readFile, Script.readFile, hresume path hpath]
    simp only [hsame, bind_assoc, pure_bind, hfollow]

end

end RunSettings

end CommandLine

end MeteredWasm
