import MeteredWasm.Proofs.Machine.Growth
import MeteredWasm.Proofs.Simulation.Linked
import MeteredWasm.Sandbox.Executor

/-!
# Making executors

An executor is made where all that it takes is found (`create_of_valid`), and what is found says
what the executor is (`create_eq_ok`). The memory of the control block is among its memories
(`hasMemory_of_create`).
-/

set_option autoImplicit false

namespace MeteredWasm

open Wasm Machine Metering Linking Simulation

/-- What is linked is within the limits and valid, and its imports are provided and fit. -/
theorem Linking.prepare_eq_ok {a : Artifact} {imports : Imports} {ceiling : UInt64}
    {hardware : Hardware} {p : Prepared} : Linking.prepare a imports ceiling hardware = .ok p ↔
      checkLimits a.memory ceiling = .ok () ∧ ∃ m, Validation.validate? .engine a.wasm = some m ∧
        checkImports m imports [] m.imports = .ok () ∧
        instantiate? a imports ceiling hardware m = some p := by
  simp only [Linking.prepare, except_bind_eq_ok]
  constructor
  · rintro ⟨_, hlimits, h⟩
    split at h
    · cases h
    · rename_i m hvalid
      simp only [except_bind_eq_ok] at h
      obtain ⟨_, himports, h⟩ := h
      split at h
      · cases h
      · rename_i p' hp
        cases h
        exact ⟨hlimits, m, hvalid, himports, hp⟩
  · rintro ⟨hlimits, m, hvalid, himports, hp⟩
    refine ⟨(), hlimits, ?_⟩
    simp only [hvalid, himports, hp]
    rfl

/-- What a run leaves has grown from what it begins with. -/
theorem Machine.Ends.grown {i : Instance} {s : State} {o : Outcome} (h : Ends i s o) :
    s.sandbox.storage.Grown (outcomeSandbox o).storage := by
  obtain ⟨s', hreaches, ho⟩ := ends_iff.1 h
  have hgrown : s.sandbox.storage.Grown s'.sandbox.storage := by
    clear ho
    induction hreaches with
    | refl => exact .refl _
    | @tail s₁ s₂ _ hstep ih =>
      have hnext := grown_step i s₁
      rw [hstep] at hnext
      exact ih.trans hnext
  have hlast := grown_step i s'
  cases hstep : step i s' <;> rw [hstep] at ho hlast <;> cases ho <;> exact hgrown.trans hlast

namespace Executor

/-- The executor that is attached to what has been linked, before anything has run. -/
def attached (p : Prepared) (blockMemory : Nat) (controls : Controls) (entry : UInt32) : Executor :=
  ⟨{ p.instance_ with blockMemory, controls := some controls }, entry,
    ⟨p.storage, 0, false, [], []⟩, false⟩

theorem create_of_valid {fuel : Nat} {r : Runtime} {a : Artifact} {imports : Imports}
    {ceiling : UInt64} {m : Module} {p : Prepared} {blockMemory : Nat} {controls : Controls}
    {entry : UInt32} (hvalid : Validation.validate? .engine a.wasm = some m)
    (hlimits : checkLimits a.memory ceiling = .ok ())
    (himports : checkImports m imports [] m.imports = .ok ())
    (hp : instantiate? a imports ceiling (hardware r) m = some p)
    (hstarts : p.module.starts = []) (hmemory : findMemory a p = .ok blockMemory)
    (hsize : a.controlBlock.requiredMemory ≤
      (memoryOf { p.instance_ with blockMemory } ⟨p.storage, 0, false, [], []⟩).size)
    (hcontrols : findControls p = .ok controls) (hentry : findEntry a p = .ok entry) :
    create fuel r a imports ceiling = some (.ok (attached p blockMemory controls entry), []) := by
  have hprepare := Linking.prepare_eq_ok.2 ⟨hlimits, m, hvalid, himports, hp⟩
  have hstart : start fuel p = some (true, ⟨p.storage, 0, false, [], []⟩) := by
    rw [start, hstarts]
  have hattach : attach a p ⟨p.storage, 0, false, [], []⟩ =
      .ok (attached p blockMemory controls entry) := by
    unfold attach
    simp only [hmemory, hcontrols, hentry, except_ok_bind]
    rw [if_neg (Nat.not_lt.2 hsize)]
    rfl
  simp only [create, hprepare, hstart, hattach]

section
variable {fuel fuel' : Nat}

theorem start_unique {p : Prepared} {x x' : Bool × Sandbox} (h : start fuel p = some x)
    (h' : start fuel' p = some x') : x = x' := by
  unfold start at h h'
  cases hstarts : p.module.starts with
  | nil =>
    rw [hstarts] at h h'
    exact Option.some.inj (h.symm.trans h')
  | cons func rest =>
    rw [hstarts] at h h'
    dsimp only at h h'
    cases hrun : Machine.run p.instance_ fuel ⟨⟨p.storage, 0, false, [], []⟩, .call func []⟩ with
    | none => rw [hrun] at h; cases h
    | some o =>
      cases hrun' : Machine.run p.instance_ fuel' ⟨⟨p.storage, 0, false, [], []⟩, .call func []⟩ with
      | none => rw [hrun'] at h'; cases h'
      | some o' =>
        obtain rfl := Ends.unique ⟨fuel, hrun⟩ ⟨fuel', hrun'⟩
        rw [hrun] at h
        rw [hrun'] at h'
        exact Option.some.inj (h.symm.trans h')

/-- What an executor is made of. -/
theorem create_eq_ok {a : Artifact} {imports : Imports} {r : Runtime} {ceiling : UInt64}
    {e : Executor} {calls : List HostCall}
    (h : create fuel r a imports ceiling = some (.ok e, calls)) :
    ∃ p sandbox blockMemory controls,
      Linking.prepare a imports ceiling (hardware r) = .ok p ∧
      start fuel p = some (true, sandbox) ∧ findMemory a p = .ok blockMemory ∧
      findControls p = .ok controls ∧ findEntry a p = .ok e.entry ∧
      e = ⟨{ p.instance_ with blockMemory, controls := some controls }, e.entry, sandbox, false⟩ ∧
      a.controlBlock.requiredMemory ≤ e.memorySize := by
  unfold create at h
  split at h
  · cases h
  · rename_i p hp
    split at h
    · cases h
    · rename_i sandbox hstart
      simp only [Option.some.injEq, Prod.mk.injEq] at h
      obtain ⟨hattach, -⟩ := h
      unfold attach at hattach
      simp only [except_bind_eq_ok, except_guard_eq_ok] at hattach
      obtain ⟨blockMemory, hmemory, hsize, controls, hcontrols, entry, hentry, hattach⟩ := hattach
      cases hattach
      exact ⟨p, sandbox, blockMemory, controls, hp, hstart, hmemory, hcontrols, hentry, rfl,
        Nat.not_lt.1 hsize⟩
    · cases h

/-- However many steps there are for the start function, the same executor is made. -/
theorem create_unique {a : Artifact} {imports : Imports} {r : Runtime} {ceiling : UInt64}
    {e e' : Executor} {calls calls' : List HostCall}
    (h : create fuel r a imports ceiling = some (.ok e, calls))
    (h' : create fuel' r a imports ceiling = some (.ok e', calls')) : e = e' := by
  unfold create at h h'
  cases hp : Linking.prepare a imports ceiling (hardware r) with
  | error err => rw [hp] at h; cases h
  | ok p =>
    rw [hp] at h h'
    dsimp only at h h'
    cases hs : start fuel p with
    | none => rw [hs] at h; cases h
    | some x =>
      cases hs' : start fuel' p with
      | none => rw [hs'] at h'; cases h'
      | some x' =>
        obtain rfl := start_unique hs hs'
        rw [hs] at h
        rw [hs'] at h'
        have heq := Option.some.inj (h.symm.trans h')
        cases heq
        rfl

/-- What the start function leaves has grown from what has been laid out. -/
theorem grown_start {p : Prepared} {returned : Bool} {sb : Sandbox}
    (h : start fuel p = some (returned, sb)) : p.storage.Grown sb.storage := by
  unfold start at h
  cases hstarts : p.module.starts with
  | nil =>
    rw [hstarts] at h
    cases h
    exact .refl _
  | cons func rest =>
    rw [hstarts] at h
    dsimp only at h
    cases hrun : Machine.run p.instance_ fuel ⟨⟨p.storage, 0, false, [], []⟩, .call func []⟩ with
    | none => simp [hrun] at h
    | some o =>
      have hgrown := Ends.grown ⟨fuel, hrun⟩
      rw [hrun] at h
      cases o <;> cases h <;> exact hgrown

/-- The memory that is found is one of the instance. -/
theorem lt_of_findMemory {a : Artifact} {imports : Imports} {ceiling : UInt64}
    {hardware : Hardware} {m : Module} {p : Prepared} {index : Nat}
    (hp : instantiate? a imports ceiling hardware m = some p)
    (h : findMemory a p = .ok index) : index < p.storage.memories.length := by
  have hmodule := module_of_instantiate hp
  unfold findMemory at h
  split at h
  · rename_i himported
    cases h
    obtain ⟨_, _, st₀, st, -, -, -, hst₀, hfill, rfl⟩ := instantiate_eq_some.1 hp
    have hgrown := (fill_grows m).related st₀
    rw [hfill] at hgrown
    have hsame : st.memories.length = st₀.memories.length := hgrown.count
    change (if m.importedMemories.isEmpty then m.memories.length else 0) < st.memories.length
    rw [hsame]
    simp only [emptyStorage?, Option.bind_eq_bind, Option.bind_eq_some_iff, Option.pure_def,
      Option.some.injEq, providedMemory, himported, if_true] at hst₀
    obtain ⟨own, hown, rfl⟩ := hst₀
    have hlength := length_of_mapM hown
    split <;> simp [hlength]
  · split at h
    · cases h
    · split at h
      · cases h
      · split at h
        · rename_i e _ hshared
          cases h
          obtain ⟨_, hindex, -⟩ := (Option.any_eq_true _ _).1 hshared
          exact (List.getElem?_eq_some_iff.1 hindex).1
        · cases h

/-- There is a memory that holds the control block. -/
theorem hasMemory_of_create {a : Artifact} {imports : Imports} {r : Runtime} {ceiling : UInt64}
    {e : Executor} {calls : List HostCall}
    (h : create fuel r a imports ceiling = some (.ok e, calls)) :
    e.instance_.blockMemory < e.sandbox.storage.memories.length := by
  obtain ⟨p, sandbox, blockMemory, controls, hprepare, hstart, hmemory, -, -, he, -⟩ :=
    create_eq_ok h
  obtain ⟨-, m, -, -, hp⟩ := prepare_eq_ok.1 hprepare
  have hcount : sandbox.storage.memories.length = p.storage.memories.length :=
    (grown_start hstart).count
  rw [he]
  change blockMemory < sandbox.storage.memories.length
  exact hcount ▸ lt_of_findMemory hp hmemory

end

end Executor

end MeteredWasm
