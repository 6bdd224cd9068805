import MeteredWasm.Proofs.Session.Idle
import MeteredWasm.Proofs.Session.Moments

/-!
# Installing snapshots

A snapshot is put into an executor in place, step by step: two checks, the copy into memory, and the
flag (`install`). Whatever a step has done stays done when a later one fails. Only the checks can
fail, though, and they come first (`install_eq`): so a refused install leaves the executor as it was,
a completed one changes nothing but memory and flag, and a snapshot is given back as it was put in
(`AllOrNothing`, `install_all_or_nothing`).
-/

set_option autoImplicit false

namespace MeteredWasm

open Wasm Machine

namespace Executor

/-! ## Step by step -/

/-- Why an install stops: a check refuses it, or the copy does not fit. -/
inductive InstallError
  | refused (reason : RestoreError)
  | copy (error : ExecutionError)
  deriving Repr, DecidableEq

/-- A computation on an executor that may fail. What it did before stays done. -/
abbrev Install := ExceptT InstallError (StateM Executor)

/-- Lets only a snapshot pass that the executor can take up. -/
def checkSnapshot (s : ByteArray) : Install Unit := do
  let e ← get
  if e.faulted then throw (.refused .faulted)
  else if s.size ≠ e.memorySize then
    throw (.refused (.snapshot (.memorySizeMismatch e.memorySize s.size)))

/-- Puts bytes into memory where it stands. -/
def put (address : Nat) (bytes : ByteArray) : Install Unit :=
  modify fun e => { e with
    sandbox := { e.sandbox with
      storage := e.sandbox.storage.modifyMemory e.instance_.blockMemory
        (·.overwrite address bytes 0 bytes.size) } }

/-- Copies bytes into a memory that belongs to the instance alone. -/
def copyOwned (m : Memory) (address : Nat) (bytes : ByteArray) : Install Unit :=
  if m.holds address bytes.size then put address bytes else throw (.copy .ownedAccess)

/-- Copies bytes into a memory that is shared. -/
def copyShared (m : Memory) (address : Nat) (bytes : ByteArray) : Install Unit :=
  if m.holds address bytes.size then put address bytes
  else throw (.copy (.memoryAccess address bytes.size))

/-- Copies bytes into memory, from an address on. -/
def writeMemory (address : Nat) (bytes : ByteArray) : Install Unit := do
  let e ← get
  match e.sandbox.storage.memories[e.instance_.blockMemory]? with
  | none => throw (.copy (.missingExport "memory"))
  | some m => if m.shared then copyShared m address bytes else copyOwned m address bytes

/-- Puts a snapshot in the place of linear memory and pauses the executor, in place. -/
def install (s : ByteArray) : Install Unit := do
  checkSnapshot s
  writeMemory 0 s
  modify fun e => { e with sandbox := { e.sandbox with paused := true } }

section
variable {e e₁ : Executor} {s : ByteArray} {error : InstallError}

theorem install_bind_of_ok {α β : Type} {x : Install α} {k : α → Install β} {a : α}
    (h : x e = (.ok a, e₁)) : (x >>= k) e = k a e₁ := by
  simp only [bind, ExceptT.bind, ExceptT.mk, StateT.bind, h]
  rfl

theorem install_bind_of_error {α β : Type} {x : Install α} {k : α → Install β}
    (h : x e = (.error error, e₁)) : (x >>= k) e = (.error error, e₁) := by
  simp only [bind, ExceptT.bind, ExceptT.mk, StateT.bind, h]
  rfl

theorem checkSnapshot_eq (e : Executor) (s : ByteArray) : checkSnapshot s e =
    (if e.faulted then .error (.refused .faulted)
      else if s.size ≠ e.memorySize then
        .error (.refused (.snapshot (.memorySizeMismatch e.memorySize s.size)))
      else .ok (), e) := by
  change (if e.faulted then throw (.refused .faulted)
    else if s.size ≠ e.memorySize then
      throw (.refused (.snapshot (.memorySizeMismatch e.memorySize s.size)))
    else pure () : Install Unit) e = _
  split
  · rfl
  · split <;> rfl

/-- Copying as many bytes as memory has is filling it with them. -/
theorem writeMemory_all {m : Memory} {bytes : ByteArray}
    (hm : e.sandbox.storage.memories[e.instance_.blockMemory]? = some m)
    (h : bytes.size = m.size) : writeMemory 0 bytes e = (.ok (), { e with
      sandbox := { e.sandbox with storage := refilled e.instance_ e.sandbox.storage bytes } }) := by
  have hholds : m.holds 0 bytes.size = true := by
    simp only [Memory.holds, decide_eq_true_eq, h]
    omega
  have hstorage : e.sandbox.storage.modifyMemory e.instance_.blockMemory
      (·.overwrite 0 bytes 0 bytes.size) = refilled e.instance_ e.sandbox.storage bytes :=
    Storage.modifyMemory_congr fun m' hm' => by
      rw [Option.some.inj (hm'.symm.trans hm)]
      exact Memory.overwrite_all m h
  have hput : put 0 bytes e = (.ok (), { e with
      sandbox := { e.sandbox with storage := refilled e.instance_ e.sandbox.storage bytes } }) := by
    rw [← hstorage]
    rfl
  change (match e.sandbox.storage.memories[e.instance_.blockMemory]? with
    | none => throw (.copy (.missingExport "memory"))
    | some m => if m.shared then copyShared m 0 bytes else copyOwned m 0 bytes : Install Unit) e = _
  rw [hm]
  dsimp only
  split
  · rw [copyShared, if_pos hholds, hput]
  · rw [copyOwned, if_pos hholds, hput]

/-- What an answer leaves in the place of the executor. -/
def inPlace (e : Executor) : Except RestoreError Executor → Except InstallError Unit × Executor
  | .ok e' => (.ok (), e')
  | .error reason => (.error (.refused reason), e)

/-- There is the memory that a snapshot is put into. -/
def HoldsMemory (e : Executor) : Prop :=
  e.instance_.blockMemory < e.sandbox.storage.memories.length

theorem HoldsMemory.exists_memory (h : HoldsMemory e) :
    ∃ m, e.sandbox.storage.memories[e.instance_.blockMemory]? = some m ∧ e.memory = m := by
  have hm := List.getElem?_eq_getElem h
  exact ⟨_, hm, by rw [memory, memoryOf, hm, Option.getD_some]⟩

/-- Nothing has been done yet when an install stops, and then nothing stops it. -/
theorem install_eq (hmemory : HoldsMemory e) (s : ByteArray) :
    install s e = e.inPlace (e.deserialize s) := by
  have hcheck := checkSnapshot_eq e s
  unfold install deserialize
  split at hcheck
  · rename_i hfaulted
    rw [install_bind_of_error hcheck, if_pos hfaulted]
    rfl
  · rename_i hopen
    split at hcheck
    · rename_i hsize
      rw [install_bind_of_error hcheck, if_neg hopen, if_pos hsize]
      rfl
    · rename_i hsize
      obtain ⟨m, hm, hsame⟩ := hmemory.exists_memory
      have hfits : s.size = m.size := by rw [not_not.1 hsize, memorySize, hsame]
      rw [install_bind_of_ok hcheck, install_bind_of_ok (writeMemory_all hm hfits), if_neg hopen,
        if_neg hsize, write_all hm hfits]
      rfl

end

/-! ## What a completed install changes -/

/-- The executor `e'` holds the snapshot and is paused; everything else is as in `e`: gas, the
faults, the instance, the host calls, tables, globals and segments, the limits of the memory, and
any other memory. -/
structure Installed (e : Executor) (s : ByteArray) (e' : Executor) : Prop where
  memory : e'.memory = { e.memory with bytes := s }
  paused : e'.isPaused = true
  elsewhere : ∀ k, k ≠ e.instance_.blockMemory →
    e'.sandbox.storage.memories[k]? = e.sandbox.storage.memories[k]?
  kept : e' = { e with
    sandbox := { e.sandbox with
      paused := true
      storage := { e.sandbox.storage with memories := e'.sandbox.storage.memories } } }

/-- Runs that find no gas. -/
inductive Starved (e : Executor) : Executor → Prop
  | start : Starved e e
  | run {e₁ e₂ : Executor} {fuel : Nat} {budget : Int} {answer : Except ExecutionError Bool}
      (before : Starved e e₁) (gas : topUp e₁.gas budget ≤ 0)
      (run : e₁.run fuel budget = some (answer, e₂)) : Starved e e₂

section
variable {e e' : Executor} {s : ByteArray}

theorem installed_of_deserialize (h : e.deserialize s = .ok e') : Installed e s e' := by
  obtain ⟨-, -, hmemory, rfl⟩ := deserialize_eq_ok.1 h
  have hfilled : (refilled e.instance_ e.sandbox.storage s).memories[e.instance_.blockMemory]? =
      some { e.memory with bytes := s } := by
    have hm := List.getElem?_eq_getElem hmemory
    have hsame : e.memory = e.sandbox.storage.memories[e.instance_.blockMemory] := by
      rw [memory, memoryOf, hm, Option.getD_some]
    rw [hsame]
    simp [refilled, Storage.modifyMemory, hm]
  refine ⟨?_, rfl, fun k hk => ?_, rfl⟩
  · rw [memory, memoryOf, hfilled, Option.getD_some]
  · simp [refilled, Storage.modifyMemory, hk.symm]

/-- The snapshot that has been installed is the one that is taken. -/
theorem Installed.serialize (h : Installed e s e') (hopen : e.faulted = false) :
    e'.serialize = some s := by
  refine serialize_eq_some.2 ⟨h.paused, ?_, ?_⟩
  · rw [h.kept]
    exact hopen
  · rw [h.memory]

/-- Nothing but gas changes where there is none. -/
theorem Starved.serialize (h : Starved e e') : e'.serialize = e.serialize := by
  induction h with
  | start => rfl
  | run _ hgas hrun ih =>
    rw [← ih]
    cases ran_of_run hrun with
    | refused => rfl
    | idle => rfl
    | ended _ hpos => omega
    | failed _ hpos => omega

end

/-! ## All or nothing -/

/-- Why an executor does not take a snapshot up: an error has stopped it, or else the snapshot is
not exactly as long as memory. -/
inductive Declines (e : Executor) (s : ByteArray) : RestoreError → Prop
  | faulted (faulted : e.faulted = true) : Declines e s .faulted
  | size (unfaulted : e.faulted = false) (size : s.size ≠ e.memorySize) :
      Declines e s (.snapshot (.memorySizeMismatch e.memorySize s.size))

/-- What installing a snapshot in an executor does. -/
structure AllOrNothing (e : Executor) (s : ByteArray) : Prop where
  /-- Step by step and in place, it does what is done to the executor as a whole. -/
  inPlace : install s e = e.inPlace (e.deserialize s)
  /-- It fails only where it is refused, and then it has changed nothing. -/
  fails : ∀ error e', install s e = (.error error, e') ↔
    e' = e ∧ ∃ reason, error = .refused reason ∧ Declines e s reason
  completes : (∃ e', install s e = (.ok (), e')) ↔
    e.faulted = false ∧ s.size = e.memorySize
  installed : ∀ e', install s e = (.ok (), e') → Installed e s e'
  /-- Runs without gas leave what has been installed. -/
  kept : ∀ e' e'', install s e = (.ok (), e') → Starved e' e'' → e''.serialize = some s
  /-- What another executor has given away is given back by this one. -/
  moved : ∀ other : Executor, other.serialize = some s → other.memorySize = e.memorySize →
    e.faulted = false → ∃ e', install s e = (.ok (), e') ∧ e'.serialize = some s
  /-- Its own snapshot changes nothing. -/
  own : e.serialize = some s → install s e = (.ok (), e)

section
variable {e e' : Executor} {s : ByteArray} (hmemory : HoldsMemory e)
include hmemory

/-- An executor can take up what is as long as its memory. -/
theorem HoldsMemory.deserialize (hopen : e.faulted = false) (hsize : s.size = e.memorySize) :
    ∃ e', e.deserialize s = .ok e' := ⟨_, deserialize_eq_ok.2 ⟨hopen, hsize, hmemory, rfl⟩⟩

theorem HoldsMemory.deserialize_eq_error {reason : RestoreError} :
    e.deserialize s = .error reason ↔ Declines e s reason := by
  by_cases hfaulted : e.faulted = true
  · rw [Executor.deserialize, if_pos hfaulted]
    constructor
    · intro h
      cases h
      exact .faulted hfaulted
    · intro h
      cases h with
      | faulted => rfl
      | size unfaulted => simp [hfaulted] at unfaulted
  · have hopen := Bool.eq_false_iff.2 hfaulted
    by_cases hsize : s.size = e.memorySize
    · obtain ⟨e', hok⟩ := hmemory.deserialize hopen hsize
      rw [hok]
      constructor
      · intro h
        cases h
      · intro h
        cases h with
        | faulted faulted => exact absurd faulted hfaulted
        | size _ size => exact absurd hsize size
    · rw [Executor.deserialize, if_neg hfaulted, if_pos hsize]
      constructor
      · intro h
        cases h
        exact .size hopen hsize
      · intro h
        cases h with
        | faulted faulted => exact absurd faulted hfaulted
        | size => rfl

theorem HoldsMemory.install_eq_ok : install s e = (.ok (), e') ↔ e.deserialize s = .ok e' := by
  rw [install_eq hmemory]
  constructor
  · intro h
    cases hd : e.deserialize s with
    | ok e₁ => rw [hd] at h; cases h; rfl
    | error reason => rw [hd] at h; cases h
  · intro h
    rw [h]
    rfl

theorem HoldsMemory.install_eq_error {error : InstallError} : install s e = (.error error, e') ↔
    e' = e ∧ ∃ reason, error = .refused reason ∧ e.deserialize s = .error reason := by
  rw [install_eq hmemory]
  constructor
  · intro h
    cases hd : e.deserialize s with
    | ok e₁ => rw [hd] at h; cases h
    | error reason => rw [hd] at h; cases h; exact ⟨rfl, reason, rfl, rfl⟩
  · rintro ⟨rfl, reason, rfl, h⟩
    rw [h]
    rfl

theorem HoldsMemory.deserialize_own (h : e.serialize = some s) : e.deserialize s = .ok e := by
  obtain ⟨hpaused, hopen, rfl⟩ := serialize_eq_some.1 h
  refine deserialize_eq_ok.2 ⟨hopen, rfl, hmemory, ?_⟩
  have hstorage : refilled e.instance_ e.sandbox.storage e.memory.bytes = e.sandbox.storage := by
    have hsame : refilled e.instance_ e.sandbox.storage e.memory.bytes =
        e.sandbox.storage.modifyMemory e.instance_.blockMemory id := by
      refine Storage.modifyMemory_congr fun m hm => ?_
      rw [memory, memoryOf, hm]
      rfl
    rw [hsame, Storage.modifyMemory, List.modify_id]
  rw [hstorage, ← hpaused]

end

section
variable {fuel : Nat} {r : Runtime} {a : Artifact} {imports : Imports} {ceiling : UInt64}
  {e₀ e : Executor} {calls : List HostCall}

theorem Later.hasMemory (h : Later e₀ e) (hmemory : HoldsMemory e₀) : HoldsMemory e := by
  rw [HoldsMemory, h.keeps.1, h.grown.count]
  exact hmemory

theorem install_all_or_nothing (hcreate : create fuel r a imports ceiling = some (.ok e₀, calls))
    (h : Later e₀ e) (s : ByteArray) : AllOrNothing e s := by
  have hmemory := h.hasMemory (hasMemory_of_create hcreate)
  constructor
  case inPlace => exact install_eq hmemory s
  case fails =>
    intro error e'
    simp only [hmemory.install_eq_error, hmemory.deserialize_eq_error]
  case completes =>
    simp only [hmemory.install_eq_ok]
    constructor
    · rintro ⟨e', h⟩
      obtain ⟨hopen, hsize, -⟩ := deserialize_eq_ok.1 h
      exact ⟨hopen, hsize⟩
    · rintro ⟨hopen, hsize⟩
      exact hmemory.deserialize hopen hsize
  case installed => exact fun e' h => installed_of_deserialize (hmemory.install_eq_ok.1 h)
  case kept =>
    intro e' e'' h hstarved
    have hrestored := hmemory.install_eq_ok.1 h
    obtain ⟨hopen, -⟩ := deserialize_eq_ok.1 hrestored
    rw [hstarved.serialize]
    exact (installed_of_deserialize hrestored).serialize hopen
  case moved =>
    intro other hother hsize hopen
    obtain ⟨-, -, rfl⟩ := serialize_eq_some.1 hother
    obtain ⟨e', hrestored⟩ := hmemory.deserialize hopen hsize
    exact ⟨e', hmemory.install_eq_ok.2 hrestored,
      (installed_of_deserialize hrestored).serialize hopen⟩
  case own => exact fun h => hmemory.install_eq_ok.2 (hmemory.deserialize_own h)

/-- The idle executor takes the memory up that it has been made with. -/
theorem install_all_or_nothing_idle :
    create 1 shallow (idleArtifact 10 .standard) .empty 256 =
        some (.ok (idle 10 shallow .standard), []) ∧
      AllOrNothing (idle 10 shallow .standard) idlePage.bytes ∧
      ∃ e, install idlePage.bytes (idle 10 shallow .standard) = (.ok (), e) := by
  have hcreate := @IdleAt.create 10 (.constant 10) idleAt_ten 1 shallow .empty .standard (by decide)
  have hinstall := install_all_or_nothing hcreate .start idlePage.bytes
  exact ⟨hcreate, hinstall, hinstall.completes.2 ⟨rfl, rfl⟩⟩

end

end Executor

end MeteredWasm
