import MeteredWasm.Proofs.Machine.Filled
import MeteredWasm.Proofs.Session.IdleRuns
import MeteredWasm.Proofs.Suspension.Capture

/-!
# Capturing the stack of the idle module

What a pass promises (`Captured`) is kept for the idle module: with the functions that it has been
given it runs beside the idle module as it has been metered (`idle_captures`), whatever the
artifact it comes in. Where there is no room for its two frames and the control function above
them, it fails as the promise allows.
-/

set_option autoImplicit false

namespace MeteredWasm

open Wasm Machine Linking Suspension

/-! ## The two instances -/

/-- An instance of the idle module as it has been metered. -/
def idlePlain (cost : UInt32) (hardware : Hardware) (block : ControlBlock) : Instance where
  types := ((idleMetered cost).types.map TypeEntry.type).toArray
  functions := #[.hook, .code ⟨[], []⟩ [] [.i32Const cost, .call 0, .endMark]]
  relaxed := hardware.relaxed
  controls := none
  controlBlock := block
  blockMemory := 0
  maxDepth := hardware.maxDepth

/-- The entry where it calls the hook. -/
def plainWaiting : Activation := ⟨1, 0, [], [], [], [.endMark]⟩

/-- The stack that is captured. -/
def plainThread : Thread := ⟨.give [], [.activation plainWaiting], 1⟩

/-- Storage of the idle module as it has been metered. -/
def plainStorage (m : Memory) : Storage := ⟨[m], [], [], [], []⟩

/-- What the idle module is laid out with. -/
theorem emptyStorage_idle {cost : UInt32} {provided : Option Memory} {ceiling : UInt64}
    {st : Storage} (h : emptyStorage? (idleUnwound cost) provided ceiling = some st) :
    ∃ page : Memory, page.size = pageSize ∧ st = ⟨page :: provided.toList, [], [], [], []⟩ := by
  change ([⟨⟨1, none⟩, false, false, none⟩].mapM (definedMemory? ceiling)).bind
    (fun defined => some ⟨defined ++ provided.toList, [], [], [], []⟩) = some st at h
  simp only [List.mapM_cons, List.mapM_nil, Option.bind_eq_bind, Option.pure_def,
    Option.bind_eq_some_iff, Option.some.injEq] at h
  obtain ⟨_, ⟨page, hpage, _, rfl, rfl⟩, rfl⟩ := h
  refine ⟨page, ?_, rfl⟩
  unfold definedMemory? at hpage
  dsimp only at hpage
  split at hpage
  · cases hpage
    rw [Memory.size_ofPages]
    exact Nat.one_mul _
  · cases hpage

section
variable {a : Artifact} {imports : Imports} {ceiling : UInt64} {cost : UInt32}
  {hardware hardware' : Hardware} {p p' : Prepared}

/-- Both modules are linked with the same page. -/
theorem idle_linked (h : instantiate? a imports ceiling hardware (idleMetered cost) = some p)
    (h' : instantiate? a imports ceiling hardware' (idleUnwound cost) = some p')
    (hone : p'.storage.memories.length = 1) :
    ∃ m : Memory, m.size = pageSize ∧ p.instance_ = idlePlain cost hardware a.controlBlock ∧
      p.storage = plainStorage m ∧ p'.module = idleUnwound cost ∧
      p'.instance_ = { idleInstance cost hardware' a.controlBlock with controls := none } ∧
      p'.storage = idleStorage m 0 0 := by
  obtain ⟨imported, defined, st₀, st, -, himported, hdefined, hempty, hfill, rfl⟩ :=
    instantiate_eq_some.1 h
  obtain ⟨imported', defined', st₀', st', -, himported', hdefined', hempty', hfill', rfl⟩ :=
    instantiate_eq_some.1 h'
  obtain rfl : [Function.hook] = imported := Option.some.inj himported
  obtain rfl : [Function.hook] = imported' := Option.some.inj himported'
  cases hdefined
  cases hdefined'
  obtain rfl := Option.some.inj (hempty.symm.trans hempty')
  obtain ⟨page, hsize, rfl⟩ := emptyStorage_idle hempty'
  cases hfill
  cases hfill'
  have hprovided : providedMemory a.memory ceiling = none := by
    cases hprovided : providedMemory a.memory ceiling with
    | none => rfl
    | some m =>
      rw [hprovided] at hone
      cases hone
  rw [hprovided]
  exact ⟨page, hsize, rfl, rfl, rfl, rfl, rfl⟩

end

/-! ## How they stand to each other -/

/-- The idle module beside itself as it has been metered. While it unwinds it stands in state 1,
while it rewinds in state 2, and the block is where its second global says. -/
def idlePairing (cost : UInt32) : Pairing where
  func := id
  ready st st' := ∃ m address, 28 ≤ m.size ∧ st = plainStorage m ∧ st' = idleStorage m 0 address
  running st t st' t' := ∃ m address site given, 28 ≤ m.size ∧ st = plainStorage m ∧
    t = plainThread ∧ st' = idleStorage m 0 address ∧
    t' = ⟨.give [], [.activation (idleWaiting cost site given)], 1⟩
  unwound st t st' := ∃ m, 28 ≤ m.size ∧ st = plainStorage m ∧ t = plainThread ∧
    st' = idleStorage (idleSaved m) 1 16
  held st t st' := ∃ m address, IdleImage m ∧ st = plainStorage m ∧ t = plainThread ∧
    st' = idleStorage m 0 address
  rewinding st t st' := ∃ m, IdleImage m ∧ st = plainStorage m ∧ t = plainThread ∧
    st' = idleStorage m 2 16
  rebuilt st t st' t' := ∃ m, IdleImage m ∧ st = plainStorage m ∧ t = plainThread ∧
    st' = idleStorage (idleRecalled m) 2 16 ∧
    t' = ⟨.give [], [.activation (idleWaiting cost 1 0)], 1⟩

section
variable {cost : UInt32} {depth depth' : Nat} {relaxed : RelaxedResults} {block : ControlBlock}
  {m : Memory} {sb sb' : Sandbox}

/-- As it has been metered, the entry comes to the hook. -/
theorem walk_plain {gas : Int} {paused : Bool} {calls : List HostCall} {signals : List Signal} :
    walk ((idlePlain cost ⟨depth, relaxed⟩ block).deep 1) 3
      ⟨⟨plainStorage m, gas, paused, calls, signals⟩, .call 1 []⟩ =
    some ⟨⟨plainStorage m, gas, paused, calls, signals⟩,
      ⟨.invoke 0 [.i32 cost.toBitVec], plainThread.frames, 1⟩⟩ := rfl

/-- Behind the hook it returns. -/
theorem walk_plain_leave {gas : Int} {paused : Bool} {calls : List HostCall}
    {signals : List Signal} :
    walk ((idlePlain cost ⟨depth, relaxed⟩ block).deep 1) 2
      ⟨⟨plainStorage m, gas, paused, calls, signals⟩, plainThread⟩ =
    some ⟨⟨plainStorage m, gas, paused, calls, signals⟩, ⟨.give [], [], 0⟩⟩ := rfl

/-- The entry tracks that of the plain module up to the hook. -/
theorem idle_enters (hready : (idlePairing cost).ready sb.storage sb'.storage)
    (habreast : (idlePairing cost).Abreast sb sb') :
    (idlePairing cost).Tracks (idlePlain cost ⟨depth, relaxed⟩ block)
      (idleInstance cost ⟨depth', relaxed⟩ block) ⟨sb, .call 1 []⟩ ⟨sb', .call 1 []⟩ := by
  obtain ⟨m, address, hroom, hst, hst'⟩ := hready
  obtain ⟨st, gas, paused, calls, signals⟩ := sb
  obtain ⟨st', gas', paused', calls', signals'⟩ := sb'
  cases hst
  cases hst'
  have hplain := glides_of_walk (@walk_plain cost depth relaxed block m gas paused calls signals)
  have hstops (s : State) (henters : EntersHook ((idlePlain cost ⟨depth, relaxed⟩ block).deep 1)
      s.thread) : Stops ((idlePlain cost ⟨depth, relaxed⟩ block).deep 1) s :=
    ⟨.inl henters, fun hexhausts => hexhausts.not_enters henters⟩
  cases depth' with
  | zero =>
    have hfull : Exhausts (idleInstance cost ⟨0, relaxed⟩ block)
        ⟨⟨idleStorage m 0 address, gas', paused', calls', signals'⟩, .call 1 []⟩ :=
      exhausts_of_full rfl (Nat.le_refl 0)
    exact Pairing.tracks_of_meets hplain (hstops _ ⟨0, _, rfl, rfl⟩) .refl hfull.halts (.inl hfull)
  | succ depth' =>
    refine Pairing.tracks_of_meets hplain (hstops _ ⟨0, _, rfl, rfl⟩) (glides_of_walk walk_charge)
      (.inl ⟨0, _, rfl, rfl⟩) (.inr ?_)
    exact .hook rfl rfl habreast ⟨m, address, 0, cost.toBitVec, hroom, rfl, rfl, rfl, rfl⟩

/-- So does what comes behind the hook, up to the return. -/
theorem idle_goesOn {t t' : Thread}
    (hrunning : (idlePairing cost).running sb.storage t sb'.storage t')
    (habreast : (idlePairing cost).Abreast sb sb') :
    (idlePairing cost).Tracks (idlePlain cost ⟨depth, relaxed⟩ block)
      (idleInstance cost ⟨depth', relaxed⟩ block) ⟨sb, t⟩ ⟨sb', t'⟩ := by
  obtain ⟨m, address, site, given, hroom, hst, rfl, hst', rfl⟩ := hrunning
  obtain ⟨st, gas, paused, calls, signals⟩ := sb
  obtain ⟨st', gas', paused', calls', signals'⟩ := sb'
  cases hst
  cases hst'
  refine Pairing.tracks_of_meets (n := 1) (glides_of_walk walk_plain_leave)
    ⟨.inr ⟨_, rfl⟩, roomy_of_finished rfl⟩ (glides_of_walk walk_leave) (.inr ⟨_, rfl⟩) (.inr ?_)
  exact .finished rfl rfl habreast ⟨m, address, hroom, rfl, rfl⟩

end

section
variable {cost : UInt32} {depth : Nat} {relaxed : RelaxedResults} {st : Storage} {t : Thread}
  {sb : Sandbox}

/-- Told to unwind, the instance writes its stack down. -/
theorem idle_startsUnwind {sb' : Sandbox} {t' : Thread}
    (hrunning : (idlePairing cost).running st t sb.storage t') (hp : sb.paused = false)
    (hwrite : sb.write? (idleInstance cost ⟨depth, relaxed⟩ .standard) 16
      ⟨(ControlBlock.encode .standard).toArray⟩ = .ok sb') :
    let s : State := ⟨sb'.tell (.startUnwind 16), ⟨.invoke 2 [.ofWord 16],
      .hook .pausing :: t'.frames, t'.depth + 1⟩⟩
    Breaks (idleInstance cost ⟨depth, relaxed⟩ .standard) s ∨
      ∃ st', ComesBack (idleInstance cost ⟨depth, relaxed⟩ .standard) s
          { s.sandbox with storage := st', paused := true } ∧
        (idlePairing cost).unwound st t st' := by
  intro s
  obtain ⟨m, address, site, given, hroom, rfl, rfl, hst', rfl⟩ := hrunning
  obtain ⟨st', gas, paused, calls, signals⟩ := sb
  cases hst'
  cases hp
  obtain ⟨-, rfl⟩ := write_eq_ok_iff.1 hwrite
  by_cases hdepth : depth ≤ 2
  · exact .inl (exhausts_of_full rfl hdepth).breaks
  · obtain ⟨n, rfl⟩ : ∃ n, depth = n + 3 := ⟨depth - 3, by omega⟩
    exact .inr ⟨_, ⟨[], 0, glides_of_walk (walk_unwind hroom)⟩, m, hroom, rfl, rfl, rfl⟩

/-- The range that a control block in its usual place reserves. -/
theorem reserved_standard {i : Instance} (hblock : i.controlBlock = .standard)
    (hmemory : i.blockMemory = 0) {address : Nat} :
    i.reserved 0 address ↔ 16 ≤ address ∧ address < 1024 := by
  have hiff := @Instance.reserved_iff i address (by rw [hblock]; decide)
  rw [hmemory, hblock] at hiff
  exact hiff

/-- Writing into the reserved range leaves the rest. -/
theorem agrees_reserved {i : Instance} (hblock : i.controlBlock = .standard)
    (hmemory : i.blockMemory = 0) {m m' : Memory} {start : Nat} {bs : Bytes}
    (h : m.Agrees (i.reserved 0) m') (hroom : start + bs.length ≤ m'.size) (hfirst : 16 ≤ start)
    (hlast : start + bs.length ≤ 1024) : m.Agrees (i.reserved 0) (m'.write start bs) := by
  refine ⟨(Memory.size_write m' hroom).trans h.size, h.maxPages, h.shared, h.is64,
    fun address hfree => ?_⟩
  have haway : ¬(16 ≤ address ∧ address < 1024) := fun hin =>
    hfree ((reserved_standard hblock hmemory).2 hin)
  rw [Memory.byte_write _ hroom, if_neg (by omega), h.byte address hfree]

/-- The block itself is in it. -/
theorem agrees_idleBlock {i : Instance} (hblock : i.controlBlock = .standard)
    (hmemory : i.blockMemory = 0) {m : Memory} (hroom : 28 ≤ m.size) :
    m.Agrees (i.reserved 0) (idleBlock m) := by
  have hlength : (ControlBlock.encode .standard).length = 8 := ControlBlock.length_encode _
  exact agrees_reserved hblock hmemory (.refl _ m) (by omega) (by omega) (by omega)

/-- What is written down of it is in the reserved range. -/
theorem sameMemories_idle {m : Memory} (hroom : 28 ≤ m.size) {hardware : Hardware} :
    SameMemories (idleInstance cost hardware .standard).reserved [m] [idleSaved m] := by
  have hword (word : Nat) : (LittleEndian.write 4 word).length = 4 := LittleEndian.length_write 4 word
  have hsize := size_idleBlock hroom
  have hsize₁ := size_idleMarked hroom
  have hagrees := @agrees_reserved (idleInstance cost hardware .standard) rfl rfl m (idleBlock m) 24
    (LittleEndian.write 4 1) (agrees_idleBlock rfl rfl hroom) (by rw [hword]; omega) (by omega)
    (by rw [hword]; omega)
  exact .single (agrees_reserved rfl rfl hagrees (by rw [hword]; omega) (by omega)
    (by rw [hword]; omega))

/-- Told to stop, the instance goes back to normal. -/
theorem idle_stopsUnwind (hunwound : (idlePairing cost).unwound st t sb.storage) :
    Breaks (idleInstance cost ⟨depth, relaxed⟩ .standard) ⟨sb, .call 3 []⟩ ∨
      ∃ st', ComesBack (idleInstance cost ⟨depth, relaxed⟩ .standard) ⟨sb, .call 3 []⟩
          { sb with storage := st' } ∧
        (idlePairing cost).held { st with memories := st'.memories } t st' ∧
        SameMemories (idleInstance cost ⟨depth, relaxed⟩ .standard).reserved st.memories
          st'.memories := by
  obtain ⟨m, hroom, rfl, rfl, hst'⟩ := hunwound
  obtain ⟨st', gas, paused, calls, signals⟩ := sb
  cases hst'
  have himage := idleImage_saved hroom
  cases depth with
  | zero => exact .inl (exhausts_of_full rfl (Nat.le_refl 0)).breaks
  | succ n =>
    have hstop := @walk_stop (idleInstance cost ⟨n + 1, relaxed⟩ .standard) (idleSaved m) 1 16
      gas paused calls signals [] 0 28 1024 himage.position himage.limit (by decide) (by decide) 3
      rfl (Nat.succ_pos n)
    exact .inr ⟨_, ⟨[], 0, glides_of_walk hstop⟩, ⟨idleSaved m, 16, himage, rfl, rfl, rfl⟩,
      sameMemories_idle hroom⟩

/-- It can be told to rewind, -/
theorem idle_startsRewind (hheld : (idlePairing cost).held st t sb.storage) :
    RunsOut (idleInstance cost ⟨depth, relaxed⟩ .standard) ⟨sb, .call 4 [.ofWord 16]⟩ ∨
      ∃ st', ComesBack (idleInstance cost ⟨depth, relaxed⟩ .standard) ⟨sb, .call 4 [.ofWord 16]⟩
          { sb with storage := st' } ∧ (idlePairing cost).rewinding st t st' := by
  obtain ⟨m, address, himage, rfl, rfl, hst'⟩ := hheld
  obtain ⟨st', gas, paused, calls, signals⟩ := sb
  cases hst'
  cases depth with
  | zero => exact .inl ⟨_, .refl, exhausts_of_full rfl (Nat.le_refl 0)⟩
  | succ n =>
    have hstart := @walk_start (idleInstance cost ⟨n + 1, relaxed⟩ .standard) m 16 gas paused
      calls signals [] 0 28 1024 himage.position himage.limit (by decide) (by decide) 4 .rewinding 0
      address rfl (Nat.succ_pos n)
    exact .inr ⟨_, ⟨[], 0, glides_of_walk hstart⟩, m, himage, rfl, rfl, rfl⟩

/-- comes to the hook again then, -/
theorem idle_reenters (hrewinding : (idlePairing cost).rewinding st t sb.storage) :
    RunsOut (idleInstance cost ⟨depth, relaxed⟩ .standard) ⟨sb, .call 1 []⟩ ∨
      ∃ st' func cost' frames depth',
        Glides (idleInstance cost ⟨depth, relaxed⟩ .standard) ⟨sb, .call 1 []⟩
          ⟨{ sb with storage := st' }, ⟨.invoke func [.i32 cost'], frames, depth'⟩⟩ ∧
        (idleInstance cost ⟨depth, relaxed⟩ .standard).function? func = some .hook ∧
        (idlePairing cost).rebuilt st t st' ⟨.give [], frames, depth'⟩ := by
  obtain ⟨m, himage, rfl, rfl, hst'⟩ := hrewinding
  obtain ⟨st', gas, paused, calls, signals⟩ := sb
  cases hst'
  cases depth with
  | zero => exact .inl ⟨_, .refl, exhausts_of_full rfl (Nat.le_refl 0)⟩
  | succ n =>
    exact .inr ⟨_, 0, 0, _, 1, glides_of_walk (walk_return himage), rfl, m, himage, rfl, rfl, rfl,
      rfl⟩

/-- and goes on there. -/
theorem idle_stopsRewind {t' : Thread} (hrebuilt : (idlePairing cost).rebuilt st t sb.storage t')
    (hp : sb.paused = true) :
    let s : State := ⟨sb, ⟨.invoke 5 [], .hook .resuming :: t'.frames, t'.depth + 1⟩⟩
    RunsOut (idleInstance cost ⟨depth, relaxed⟩ .standard) s ∨
      ∃ st', Glides (idleInstance cost ⟨depth, relaxed⟩ .standard) s
          ⟨{ sb with storage := st', paused := false }, t'⟩ ∧
        (idlePairing cost).running { st with memories := st'.memories } t st' t' ∧
        SameMemories (idleInstance cost ⟨depth, relaxed⟩ .standard).reserved st.memories
          st'.memories := by
  intro s
  obtain ⟨m, himage, rfl, rfl, hst', rfl⟩ := hrebuilt
  obtain ⟨st', gas, paused, calls, signals⟩ := sb
  cases hst'
  cases hp
  have hroom := himage.room
  by_cases hdepth : depth ≤ 2
  · exact .inl ⟨s, .refl, exhausts_of_full rfl hdepth⟩
  · obtain ⟨n, rfl⟩ : ∃ n, depth = n + 3 := ⟨depth - 3, by omega⟩
    have hsize : (idleRecalled m).size = m.size := Memory.size_write_word (by omega)
    have hword := LittleEndian.length_write 4 24
    exact .inr ⟨_, glides_of_walk (walk_resume himage),
      ⟨idleRecalled m, 16, 1, 0, by omega, rfl, rfl, rfl, rfl⟩,
      .single (agrees_reserved rfl rfl (.refl _ m) (by omega) (by omega) (by omega))⟩

end

/-! ## The contract -/

section
variable {cost : UInt32} {depth depth' : Nat} {relaxed : RelaxedResults}

theorem sameBeside_idle (m m' : Memory) (address address' : BitVec 32) :
    SameBeside (0, 1) (idleStorage m 0 address) (idleStorage m' 0 address') where
  tables := rfl
  globals k h h' := by
    obtain ⟨k, rfl⟩ : ∃ n, k = n + 2 := ⟨k - 2, by dsimp only at h h'; omega⟩
    rfl
  elements := rfl
  datas := rfl

/-- The laws hold of the idle module. -/
theorem idle_captures : (idlePairing cost).Captures (idlePlain cost ⟨depth, relaxed⟩ .standard)
    (idleInstance cost ⟨depth', relaxed⟩ .standard) (0, 1) ⟨2, 3, 4, 5⟩ 1 1 where
  shows := by
    rintro st st' ⟨m, address, -, rfl, rfl⟩
    rfl
  settled := by
    rintro st st' st₁' memories ⟨m, address, -, rfl, rfl⟩ ⟨m₁, address₁, -, -, rfl⟩
    exact sameBeside_idle ..
  moves := by
    rintro st t st' st₀ st₀' ⟨m, address, himage, rfl, rfl, rfl⟩ ⟨m₀, address₀, -, rfl, rfl⟩ -
    exact ⟨m, address₀, himage, rfl, rfl, rfl⟩
  restores := by
    rintro st t st' st₀ st₀' ⟨m, address, himage, rfl, rfl, rfl⟩ ⟨m₀, address₀, -, rfl, rfl⟩ -
    exact ⟨m, address₀, himage, rfl, rfl, rfl⟩
  enters := idle_enters
  goesOn := idle_goesOn
  startsUnwind := idle_startsUnwind
  stopsUnwind hunwound _ _ := idle_stopsUnwind hunwound
  startsRewind hheld _ := idle_startsRewind hheld
  reenters hrewinding _ := idle_reenters hrewinding
  stopsRewind := idle_stopsRewind

/-- The entry is the only function that the idle module exports, and keeps its index. -/
theorem entries_idle {name : String} {entry entry' : UInt32}
    (h : exportedFunc? (idleMetered cost) name = some entry)
    (h' : exportedFunc? (idleUnwound cost) name = some entry') : entry = 1 ∧ entry' = 1 := by
  by_cases hname : "entry" = name
  · subst hname
    exact ⟨(Option.some.inj h).symm, (Option.some.inj h').symm⟩
  · have hexports : (idleMetered cost).exports = [⟨"entry", .func, 1⟩, ⟨"memory", .memory, 0⟩] := rfl
    simp [exportedFunc?, hexports, hname] at h

theorem controls_idle {p : Prepared} {hardware : Hardware} {block : ControlBlock}
    {controls : Controls} (hmodule : p.module = idleUnwound cost)
    (hinstance : p.instance_ = { idleInstance cost hardware block with controls := none })
    (h : findControls p = .ok controls) : controls = ⟨2, 3, 4, 5⟩ := by
  obtain ⟨m, i, st⟩ := p
  cases hmodule
  cases hinstance
  exact (Except.ok.inj h).symm

/-- The idle module has been given what it takes to have its stack captured. -/
theorem captured_idle (cost : UInt32) :
    Captured (idleMetered cost) (idleUnwound cost) .standard (0, 1) := by
  intro a imports ceiling relaxed controls name entry entry' hblock hhosts hentry hentry'
  refine ⟨idlePairing cost, fun depth depth' p p' hp hp' hone hcontrols htype => ?_⟩
  obtain ⟨m, hsize, hplain, hst, hmodule, hinstance, hst'⟩ := idle_linked hp hp' hone
  obtain rfl := controls_idle hmodule hinstance hcontrols
  obtain ⟨rfl, rfl⟩ := entries_idle hentry hentry'
  rw [hplain, hinstance, hst, hst', hblock]
  refine ⟨idle_captures, m, 0, ?_, rfl, rfl⟩
  rw [hsize]
  decide

/-- A pass for the idle module alone promises no more. -/
theorem IdleAt.captures_idlePass {rules : Metering.Rules} (h : IdleAt cost rules)
    (request : Request) : (idlePass cost).Captures request .standard fun _ => (0, 1) :=
  Pass.captures_only h.decoded (h.unwinding request) h.valid (captured_idle cost)

end

end MeteredWasm
