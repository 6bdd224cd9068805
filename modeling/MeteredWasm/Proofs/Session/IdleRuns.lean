import MeteredWasm.Proofs.Machine.Signals
import MeteredWasm.Proofs.Machine.Walk
import MeteredWasm.Proofs.Session.Idle
import MeteredWasm.Proofs.Session.Use

/-!
# Runs of the idle executor

What the idle module does when it is called, whatever is in its memory: it charges its price and
returns; or it unwinds, and writes into the stack region where it stands; or it rewinds, and reads
that.
-/

set_option autoImplicit false

namespace MeteredWasm

open Wasm Machine Suspension

section
variable {i : Instance} {m : Memory} {state address : BitVec 32} {gas : Int} {paused : Bool}
  {calls : List HostCall} {signals : List Signal} {frames : List Frame} {depth : Nat}

/-! ## Control functions -/

section
variable {position limit : Nat}
  (hposition : m.load address.toNat 4 = .ok position)
  (hlimit : m.load (address.toNat + 4) 4 = .ok limit) (hle : position ≤ limit)
  (hword : limit < 2 ^ 32)
include hposition hlimit hle hword

/-- There is room up to the position. -/
theorem walk_check {func : UInt32} {arity : Nat} {locals vs : List Value} {labels : List Label}
    {code : List Operator} :
    walk i 6 ⟨⟨idleStorage m state address, gas, paused, calls, signals⟩,
      ⟨.run ⟨func, arity, locals, vs, labels, idleGlobals.check ++ code⟩, frames, depth⟩⟩ =
    some ⟨⟨idleStorage m state address, gas, paused, calls, signals⟩,
      ⟨.run ⟨func, arity, locals, vs, labels, code⟩, frames, depth⟩⟩ := by
  have hroom : (BitVec.ofNat 32 limit).ult (BitVec.ofNat 32 position) = false := by
    simp only [BitVec.ult, BitVec.toNat_ofNat, Nat.mod_eq_of_lt hword,
      Nat.mod_eq_of_lt (Nat.lt_of_le_of_lt hle hword), decide_eq_false_iff_not, Nat.not_lt, hle]
  have hbranch (past : Bool) (hpast : past = false) :
      walk i 1 ⟨⟨idleStorage m state address, gas, paused, calls, signals⟩,
        ⟨.run ⟨func, arity, locals, .ofBool past :: vs, labels,
          [.ifThen .empty, .unreachable, .endMark] ++ code⟩, frames, depth⟩⟩ =
      some ⟨⟨idleStorage m state address, gas, paused, calls, signals⟩,
        ⟨.run ⟨func, arity, locals, vs, labels, code⟩, frames, depth⟩⟩ := by
    subst hpast
    rfl
  refine walk_append (n := 1) (k := 5) rfl ?_
  refine (walk_succ rfl (step_load rfl hposition) 4).trans ?_
  refine walk_append (n := 1) (k := 3) rfl ?_
  refine (walk_succ rfl (step_load rfl hlimit) 2).trans ?_
  exact walk_append (n := 1) (k := 1) rfl (hbranch _ hroom)

/-- A function that starts unwinding or rewinding notes the state and where the block is. -/
theorem walk_start {func : UInt32} {p : Phase} {state' address' : BitVec 32}
    (hfunc : i.function? func = some (.code ⟨[.i32], []⟩ [] (idleGlobals.start p)))
    (hdepth : depth < i.maxDepth) :
    walk i 12 ⟨⟨idleStorage m state' address', gas, paused, calls, signals⟩,
      ⟨.invoke func [.i32 address], frames, depth⟩⟩ =
    some ⟨⟨idleStorage m p.code.toBitVec address, gas, paused, calls, signals⟩,
      ⟨.give [], frames, depth⟩⟩ := by
  refine (walk_succ (by simp [entersHook, hfunc]) (step_enter hfunc hdepth) 11).trans ?_
  refine walk_append (n := 4) (k := 7) rfl ?_
  exact walk_append (n := 6) (k := 1) (walk_check hposition hlimit hle hword) rfl

/-- A function that stops either goes back to normal. -/
theorem walk_stop {func : UInt32}
    (hfunc : i.function? func = some (.code ⟨[], []⟩ [] idleGlobals.stop))
    (hdepth : depth < i.maxDepth) :
    walk i 10 ⟨⟨idleStorage m state address, gas, paused, calls, signals⟩,
      ⟨.invoke func [], frames, depth⟩⟩ =
    some ⟨⟨idleStorage m 0 address, gas, paused, calls, signals⟩,
      ⟨.give [], frames, depth⟩⟩ := by
  refine (walk_succ (by simp [entersHook, hfunc]) (step_enter hfunc hdepth) 9).trans ?_
  refine walk_append (n := 2) (k := 7) rfl ?_
  exact walk_append (n := 6) (k := 1) (walk_check hposition hlimit hle hword) rfl

end
end

/-! ## The entry -/

/-- The entry where it calls the hook. -/
def idleWaiting (cost : UInt32) (site given : BitVec 32) : Activation :=
  ⟨1, 0, [.i32 site, .i32 given], [], [⟨0, [], none⟩, ⟨0, [], none⟩], (idleCode cost).drop 34⟩

section
variable {cost : UInt32} {n : Nat} {relaxed : RelaxedResults} {block : ControlBlock} {m : Memory}
  {address : BitVec 32} {gas : Int} {paused : Bool} {calls : List HostCall}
  {signals : List Signal}

/-- The entry charges its price. -/
theorem walk_charge : walk (idleInstance cost ⟨n + 1, relaxed⟩ block) 20
    ⟨⟨idleStorage m 0 address, gas, paused, calls, signals⟩, .call 1 []⟩ =
    some ⟨⟨idleStorage m 0 address, gas, paused, calls, signals⟩,
      ⟨.invoke 0 [.ofWord cost], [.activation (idleWaiting cost 0 cost.toBitVec)], 1⟩⟩ := rfl

/-- Where it goes on normally it returns. -/
theorem walk_leave {site given : BitVec 32} : walk (idleInstance cost ⟨n, relaxed⟩ block) 7
    ⟨⟨idleStorage m 0 address, gas, paused, calls, signals⟩,
      ⟨.give [], [.activation (idleWaiting cost site given)], 1⟩⟩ =
    some ⟨⟨idleStorage m 0 address, gas, paused, calls, signals⟩, ⟨.give [], [], 0⟩⟩ := rfl

section
variable {position : BitVec 32}

/-- Where it unwinds it writes down which call it stands at. -/
theorem walk_save {site given : BitVec 32} {m₁ m₂ : Memory}
    (hposition : m.load address.toNat 4 = .ok position.toNat)
    (hholds : m.holds position.toNat 4 = true)
    (hm₁ : m₁ = m.write position.toNat (LittleEndian.write 4 1))
    (hposition₁ : m₁.load address.toNat 4 = .ok position.toNat)
    (hholds₁ : m₁.holds address.toNat 4 = true)
    (hm₂ : m₂ = m₁.write address.toNat (LittleEndian.write 4 (position + 4).toNat)) :
    walk (idleInstance cost ⟨n, relaxed⟩ block) 19
      ⟨⟨idleStorage m 1 address, gas, paused, calls, signals⟩,
        ⟨.give [], [.activation (idleWaiting cost site given)], 1⟩⟩ =
    some ⟨⟨idleStorage m₂ 1 address, gas, paused, calls, signals⟩, ⟨.give [], [], 0⟩⟩ := by
  subst hm₁ hm₂
  refine walk_append (n := 9) (k := 10) rfl ?_
  refine (walk_succ rfl (step_load_word rfl hposition) 9).trans ?_
  refine walk_append (n := 1) (k := 8) rfl ?_
  refine (walk_succ rfl (step_store rfl hholds) 7).trans ?_
  refine walk_append (n := 2) (k := 5) rfl ?_
  refine (walk_succ rfl (step_load_word rfl hposition₁) 4).trans ?_
  refine walk_append (n := 2) (k := 2) rfl ?_
  exact (walk_succ rfl (step_store rfl hholds₁) 1).trans rfl

end

/-- The entry where it reads which call it stood at, with some of its code done. -/
def idleRecalling (cost : UInt32) (done : Nat) (operands : List Value) : Activation :=
  ⟨1, 0, [.i32 0, .i32 0], operands, [⟨0, [], none⟩], (idleCode cost).drop done⟩

/-- Where it rewinds it reads which call it stood at, and makes it again. -/
theorem walk_recall {position moved : BitVec 32} {m₁ : Memory}
    (hmoved : moved - 4 = position)
    (hposition : m.load address.toNat 4 = .ok moved.toNat)
    (hholds : m.holds address.toNat 4 = true)
    (hm₁ : m₁ = m.write address.toNat (LittleEndian.write 4 position.toNat))
    (hposition₁ : m₁.load address.toNat 4 = .ok position.toNat)
    (hsite : m₁.load position.toNat 4 = .ok 1) :
    walk (idleInstance cost ⟨n + 1, relaxed⟩ block) 30
      ⟨⟨idleStorage m 2 address, gas, paused, calls, signals⟩, .call 1 []⟩ =
    some ⟨⟨idleStorage m₁ 2 address, gas, paused, calls, signals⟩,
      ⟨.invoke 0 [.i32 0], [.activation (idleWaiting cost 1 0)], 1⟩⟩ := by
  have hmove : walk (idleInstance cost ⟨n + 1, relaxed⟩ block) 2
      ⟨⟨idleStorage m 2 address, gas, paused, calls, signals⟩,
        ⟨.run (idleRecalling cost 7 [.i32 moved, .i32 address]), [], 0⟩⟩ =
      some ⟨⟨idleStorage m 2 address, gas, paused, calls, signals⟩,
        ⟨.run (idleRecalling cost 9 [.i32 position, .i32 address]), [], 0⟩⟩ := by
    rw [← hmoved]
    rfl
  have hstored : step (idleInstance cost ⟨n + 1, relaxed⟩ block)
      ⟨⟨idleStorage m 2 address, gas, paused, calls, signals⟩,
        ⟨.run (idleRecalling cost 9 [.i32 position, .i32 address]), [], 0⟩⟩ =
      .next ⟨⟨idleStorage m₁ 2 address, gas, paused, calls, signals⟩,
        ⟨.run (idleRecalling cost 10 []), [], 0⟩⟩ := by
    rw [hm₁]
    exact step_store rfl hholds
  refine walk_append (n := 7) (k := 23) rfl ?_
  refine (walk_succ rfl (step_load_word rfl hposition) 22).trans ?_
  refine walk_append (n := 2) (k := 20) hmove ?_
  refine (walk_succ rfl hstored 19).trans ?_
  refine walk_append (n := 1) (k := 18) rfl ?_
  refine (walk_succ rfl (step_load_word rfl hposition₁) 17).trans ?_
  exact (walk_succ rfl (step_load rfl hsite) 16).trans rfl

end

/-! ## What is written down -/

/-- Memory with the control block, as the hook writes it. -/
def idleBlock (m : Memory) : Memory := m.write 16 (ControlBlock.encode .standard)

/-- The same, when it has been written down which call is suspended. -/
def idleMarked (m : Memory) : Memory := (idleBlock m).write 24 (LittleEndian.write 4 1)

/-- The same, when the entry has unwound. -/
def idleSaved (m : Memory) : Memory := (idleMarked m).write 16 (LittleEndian.write 4 28)

/-- What the idle module finds in the stack region when it rewinds. -/
structure IdleImage (m : Memory) : Prop where
  room : 28 ≤ m.size
  position : m.load 16 4 = .ok 28
  limit : m.load 20 4 = .ok 1024
  site : m.load 24 4 = .ok 1

section
variable {m : Memory} (hroom : 28 ≤ m.size)
include hroom

theorem size_idleBlock : (idleBlock m).size = m.size :=
  Memory.size_write m (by rw [ControlBlock.length_encode]; omega)

theorem size_idleMarked : (idleMarked m).size = m.size := by
  rw [idleMarked, Memory.size_write_word (by rw [size_idleBlock hroom]; omega),
    size_idleBlock hroom]

theorem size_idleSaved : (idleSaved m).size = m.size := by
  rw [idleSaved, Memory.size_write_word (by rw [size_idleMarked hroom]; omega),
    size_idleMarked hroom]

theorem holds_idle : m.holds (ControlBlock.address .standard).toNat 8 = true := by
  simp only [Memory.holds, decide_eq_true_eq]
  change 16 + 8 ≤ m.size
  omega

theorem load_idleBlock : (idleBlock m).load 16 4 = .ok 24 ∧ (idleBlock m).load 20 4 = .ok 1024 := by
  have hblock := holdsBlock .standard (holds_idle hroom)
  exact ⟨hblock.start, hblock.stop⟩

theorem load_idleMarked : (idleMarked m).load 16 4 = .ok 24 := by
  have hsize := size_idleBlock hroom
  rw [idleMarked, Memory.load_write_apart (by rw [LittleEndian.length_write]; omega)
    (.inl (by omega))]
  exact (load_idleBlock hroom).1

theorem idleImage_saved : IdleImage (idleSaved m) := by
  have hsize := size_idleBlock hroom
  have hsize₁ := size_idleMarked hroom
  have hlength := LittleEndian.length_write 4
  refine ⟨by rw [size_idleSaved hroom]; omega, Memory.load_write_word (by omega) (by decide), ?_, ?_⟩
  · rw [idleSaved, Memory.load_write_apart (by rw [hlength]; omega) (.inr (by rw [hlength])),
      idleMarked, Memory.load_write_apart (by rw [hlength]; omega) (.inl (by omega))]
    exact (load_idleBlock hroom).2
  · rw [idleSaved, Memory.load_write_apart (by rw [hlength]; omega) (.inr (by rw [hlength]; omega)),
      idleMarked]
    exact Memory.load_write_word (by omega) (by decide)

end

/-- Memory when the entry has rewound. -/
def idleRecalled (m : Memory) : Memory := m.write 16 (LittleEndian.write 4 24)

theorem IdleImage.recalled {m : Memory} (h : IdleImage m) :
    (idleRecalled m).load 16 4 = .ok 24 ∧ (idleRecalled m).load 20 4 = .ok 1024 ∧
      (idleRecalled m).load 24 4 = .ok 1 := by
  have hroom := h.room
  have hlength := LittleEndian.length_write 4
  refine ⟨Memory.load_write_word (by omega) (by decide), ?_, ?_⟩
  · rw [idleRecalled, Memory.load_write_apart (by rw [hlength]; omega) (.inr (by rw [hlength]))]
    exact h.limit
  · rw [idleRecalled,
      Memory.load_write_apart (by rw [hlength]; omega) (.inr (by rw [hlength]; omega))]
    exact h.site

/-! ## Unwinding and rewinding -/

section
variable {cost : UInt32} {n : Nat} {relaxed : RelaxedResults} {m : Memory}
  {state address : BitVec 32} {gas : Int} {calls : List HostCall} {signals : List Signal}

/-- From where the hook has it unwind, the instance gives up its stack. -/
theorem walk_unwind {site given : BitVec 32} (hroom : 28 ≤ m.size) :
    walk (idleInstance cost ⟨n + 3, relaxed⟩ .standard) 32
      ⟨⟨idleStorage (idleBlock m) state address, gas, false, calls, signals⟩,
        ⟨.invoke 2 [.ofWord 16], [.hook .pausing, .activation (idleWaiting cost site given)], 2⟩⟩ =
    some ⟨⟨idleStorage (idleSaved m) 1 16, gas, true, calls, signals⟩, ⟨.give [], [], 0⟩⟩ := by
  have hblock := load_idleBlock hroom
  have hsize := size_idleBlock hroom
  have hsize₁ := size_idleMarked hroom
  have hstart := @walk_start (idleInstance cost ⟨n + 3, relaxed⟩ .standard) (idleBlock m) 16
    gas false calls signals [.hook .pausing, .activation (idleWaiting cost site given)] 2 24 1024
    hblock.1 hblock.2 (by decide) (by decide) 2 .unwinding state address rfl
    (Nat.lt_add_left n (by decide))
  refine walk_append (n := 12) (k := 20) hstart ?_
  refine walk_append (n := 1) (k := 19) rfl ?_
  have hposition : (idleBlock m).load (16 : BitVec 32).toNat 4 = .ok (24 : BitVec 32).toNat :=
    hblock.1
  have hmarked : (idleMarked m).holds 16 4 = true := by
    simp only [Memory.holds, decide_eq_true_eq]
    omega
  exact walk_save hposition
    (by simp only [Memory.holds, decide_eq_true_eq]; change 24 + 4 ≤ _; omega) rfl
    (load_idleMarked hroom) hmarked rfl

/-- Where it is told to rewind, its entry comes to the hook. -/
theorem walk_return {paused : Bool} (himage : IdleImage m) :
    walk (idleInstance cost ⟨n + 1, relaxed⟩ .standard) 30
      ⟨⟨idleStorage m 2 16, gas, paused, calls, signals⟩, .call 1 []⟩ =
    some ⟨⟨idleStorage (idleRecalled m) 2 16, gas, paused, calls, signals⟩,
      ⟨.invoke 0 [.i32 0], [.activation (idleWaiting cost 1 0)], 1⟩⟩ := by
  have hroom := himage.room
  obtain ⟨hposition, -, hsite⟩ := himage.recalled
  exact @walk_recall cost n relaxed .standard m 16 gas paused calls signals 24 28
    (idleRecalled m) (by decide) himage.position
    (by simp only [Memory.holds, decide_eq_true_eq]; change 16 + 4 ≤ _; omega) rfl hposition hsite

/-- Told to stop rewinding in the hook, it goes on there. -/
theorem walk_resume (himage : IdleImage m) :
    walk (idleInstance cost ⟨n + 3, relaxed⟩ .standard) 11
      ⟨⟨idleStorage (idleRecalled m) 2 16, gas, true, calls, signals⟩,
        ⟨.invoke 5 [], [.hook .resuming, .activation (idleWaiting cost 1 0)], 2⟩⟩ =
    some ⟨⟨idleStorage (idleRecalled m) 0 16, gas, false, calls, signals⟩,
      ⟨.give [], [.activation (idleWaiting cost 1 0)], 1⟩⟩ := by
  obtain ⟨hposition, hlimit, -⟩ := himage.recalled
  have hstop := @walk_stop (idleInstance cost ⟨n + 3, relaxed⟩ .standard) (idleRecalled m) 2 16
    gas true calls signals [.hook .resuming, .activation (idleWaiting cost 1 0)] 2 24 1024
    hposition hlimit (by decide) (by decide) 5 rfl (Nat.lt_add_left n (by decide))
  exact walk_append (n := 10) (k := 1) hstop rfl

end

/-! ## Calls -/

/-- A function that is walked through returns. -/
theorem Executor.returns_of_walk {i : Instance} {k : Nat} {func : UInt32} {args : List Value}
    {sb sb' : Sandbox} (h : walk i k ⟨sb, .call func args⟩ = some ⟨sb', ⟨.give [], [], 0⟩⟩) :
    Executor.Returns i (k + 1) func args sb sb' :=
  ⟨[], run_of_walk h 1⟩

section
variable {cost : UInt32} {n : Nat} {relaxed : RelaxedResults} {m : Memory}
  {state address : BitVec 32} {gas : Int} {paused : Bool} {calls : List HostCall}
  {signals : List Signal}

namespace Executor

/-- With enough gas the entry returns. -/
theorem idle_returns {block : ControlBlock} (h : cost.toBitVec.toInt ≤ gas) :
    Returns (idleInstance cost ⟨n + 3, relaxed⟩ block) 29 1 []
      ⟨idleStorage m 0 address, gas, false, calls, signals⟩
      ⟨idleStorage m 0 address, gas - cost.toBitVec.toInt, false, calls, signals⟩ := by
  have hcharged := @step_charged (idleInstance cost ⟨n + 3, relaxed⟩ block)
    ⟨⟨idleStorage m 0 address, gas, false, calls, signals⟩,
      ⟨.invoke 0 [.ofWord cost], [.activation (idleWaiting cost 0 cost.toBitVec)], 1⟩⟩
    0 cost.toBitVec rfl rfl rfl h
  exact ⟨[], (run_of_walk walk_charge 9).trans
    ((run_succ_of_next hcharged 8).trans (run_of_walk walk_leave 1))⟩

/-- Without it, the entry unwinds. -/
theorem idle_unwinds (hroom : 28 ≤ m.size) (h : gas < cost.toBitVec.toInt) :
    Returns (idleInstance cost ⟨n + 3, relaxed⟩ .standard) 54 1 []
      ⟨idleStorage m 0 address, gas, false, calls, signals⟩
      ⟨idleStorage (idleSaved m) 1 16, gas - cost.toBitVec.toInt, true, calls,
        .startUnwind 16 :: signals⟩ := by
  have hpause := @step_pausing (idleInstance cost ⟨n + 3, relaxed⟩ .standard)
    ⟨⟨idleStorage m 0 address, gas, false, calls, signals⟩,
      ⟨.invoke 0 [.ofWord cost], [.activation (idleWaiting cost 0 cost.toBitVec)], 1⟩⟩
    ⟨2, 3, 4, 5⟩ 0 cost.toBitVec rfl rfl rfl rfl h
    (blockFits_of_memory (m := m) rfl (holds_idle hroom))
  exact ⟨[], (run_of_walk walk_charge 34).trans
    ((run_succ_of_next hpause 33).trans (run_of_walk (walk_unwind hroom) 1))⟩

section
variable (himage : IdleImage m)
include himage

theorem idle_stops :
    Returns (idleInstance cost ⟨n + 3, relaxed⟩ .standard) 11 3 []
      ⟨idleStorage m state 16, gas, paused, calls, signals⟩
      ⟨idleStorage m 0 16, gas, paused, calls, signals⟩ :=
  returns_of_walk (walk_stop himage.position himage.limit (by decide) (by decide) rfl
    (Nat.lt_add_left n (by decide)))

theorem idle_starts :
    Returns (idleInstance cost ⟨n + 3, relaxed⟩ .standard) 13 4 [.ofWord 16]
      ⟨idleStorage m state address, gas, paused, calls, signals⟩
      ⟨idleStorage m 2 16, gas, paused, calls, signals⟩ :=
  returns_of_walk (walk_start (p := .rewinding) himage.position himage.limit (by decide)
    (by decide) rfl (Nat.lt_add_left n (by decide)))

/-- Once the instance has been told to rewind, the entry returns, and has charged nothing. -/
theorem idle_rewinds :
    Returns (idleInstance cost ⟨n + 3, relaxed⟩ .standard) 50 1 []
      ⟨idleStorage m 2 16, gas, true, calls, signals⟩
      ⟨idleStorage (idleRecalled m) 0 16, gas, false, calls, .stopRewind :: signals⟩ := by
  have hresume : step (idleInstance cost ⟨n + 3, relaxed⟩ .standard)
      ⟨⟨idleStorage (idleRecalled m) 2 16, gas, true, calls, signals⟩,
        ⟨.invoke 0 [.i32 0], [.activation (idleWaiting cost 1 0)], 1⟩⟩ =
      .next ⟨⟨idleStorage (idleRecalled m) 2 16, gas, true, calls, .stopRewind :: signals⟩,
        ⟨.invoke 5 [], [.hook .resuming, .activation (idleWaiting cost 1 0)], 2⟩⟩ := rfl
  exact ⟨[], (run_of_walk (walk_return himage) 20).trans ((run_succ_of_next hresume 19).trans
    ((run_of_walk (walk_resume himage) 8).trans (run_of_walk walk_leave 1)))⟩

end

/-! ## Ticks -/

section
variable {fuel : Nat} (hfuel : 60 ≤ fuel)
include hfuel

theorem Returns.within {i : Instance} {k : Nat} {func : UInt32} {args : List Value}
    {sb sb' : Sandbox} (h : Returns i k func args sb sb') (hk : k ≤ 60) :
    Returns i fuel func args sb sb' := by
  obtain ⟨more, rfl⟩ := Nat.exists_eq_add_of_le (Nat.le_trans hk hfuel)
  exact h.add more

theorem idle_tick_returns {block : ControlBlock} (h : cost.toBitVec.toInt ≤ gas) :
    OwnTick (idleInstance cost ⟨n + 3, relaxed⟩ block) fuel 1 ⟨2, 3, 4, 5⟩
      ⟨idleStorage m 0 address, gas, false, calls, signals⟩ true
      ⟨idleStorage m 0 address, gas - cost.toBitVec.toInt, false, calls, signals⟩ :=
  .returned rfl ((idle_returns h).within hfuel (by decide)) rfl

theorem idle_tick_pauses (hroom : 28 ≤ m.size) (h : gas < cost.toBitVec.toInt) :
    OwnTick (idleInstance cost ⟨n + 3, relaxed⟩ .standard) fuel 1 ⟨2, 3, 4, 5⟩
      ⟨idleStorage m 0 address, gas, false, calls, signals⟩ false
      ⟨idleStorage (idleSaved m) 0 16, gas - cost.toBitVec.toInt, true, calls,
        .stopUnwind :: .startUnwind 16 :: signals⟩ := by
  have himage := idleImage_saved hroom
  refine .captured rfl ((idle_unwinds hroom h).within hfuel (by decide)) rfl ?_
    ((idle_stops himage).within hfuel (by decide))
  have hposition := @position_of_load (idleInstance cost ⟨n + 3, relaxed⟩ .standard)
    ⟨idleStorage (idleSaved m) 1 16, gas - cost.toBitVec.toInt, true, calls,
      .startUnwind 16 :: signals⟩ (idleSaved m) 28 rfl himage.position
  rw [hposition]
  exact (by decide : ¬(1024 : UInt32) < 28)

/-- A tick that rewinds charges nothing. -/
theorem idle_tick_rewinds (himage : IdleImage m) :
    OwnTick (idleInstance cost ⟨n + 3, relaxed⟩ .standard) fuel 1 ⟨2, 3, 4, 5⟩
      ⟨idleStorage m state address, gas, true, calls, signals⟩ true
      ⟨idleStorage (idleRecalled m) 0 16, gas, false, calls,
        .stopRewind :: .startRewind 16 :: signals⟩ :=
  .returned ((idle_starts himage).within hfuel (by decide))
    ((idle_rewinds himage).within hfuel (by decide)) rfl

end

/-! ## Runs -/

/-- The idle executor, run with 1 unit of gas. -/
def idlePaused : Executor :=
  ⟨idleInstance 10 (hardware shallow) .standard, 1,
    ⟨idleStorage (idleSaved idlePage) 0 16, -9, true, [], [.stopUnwind, .startUnwind 16]⟩, false⟩

theorem roomy_idlePage : 28 ≤ idlePage.size := by
  rw [size_idlePage]
  decide

theorem idle_run_short : (idle 10 shallow .standard).run 60 1 = some (.ok false, idlePaused) :=
  run_of_ownTick rfl rfl (by decide)
    (idle_tick_pauses (n := 7) (Nat.le_refl 60) roomy_idlePage (by decide))

end Executor

end

end MeteredWasm
