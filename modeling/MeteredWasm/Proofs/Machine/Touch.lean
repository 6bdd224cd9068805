import MeteredWasm.Proofs.Agreement.Compute
import MeteredWasm.Proofs.Machine.Filled

/-!
# Operators that touch memory

An operator reads bytes of linear memory if its step can come out in two ways from states that are
the same but for such bytes (`Reads`), and writes them if its step can leave another byte where one
was (`Writes`). These are just the loads and stores, of numbers, of vectors and atomic ones, and the
operators that copy, fill and initialize memory (`touches_iff`). Growing adds bytes and changes none,
its size is no byte of a memory, and waking waiters only makes sure that there is an address.
-/

set_option autoImplicit false

namespace MeteredWasm.Machine

open Wasm Simulation

/-! ## Reading and writing -/

/-- The storages are the same but for bytes of memories. -/
def Storage.SameButBytes (st st' : Storage) : Prop := st.Agrees id (fun _ _ => True) st'

/-- The sandboxes are the same but for bytes of memories. -/
structure Sandbox.SameButBytes (sb sb' : Sandbox) : Prop where
  storage : sb.storage.SameButBytes sb'.storage
  others : sb' = { sb with storage := sb'.storage }

/-- The two steps do the same but for bytes of memories. -/
inductive Step.SameButBytes : Step → Step → Prop
  | next {sb sb' : Sandbox} {t : Thread} (h : sb.SameButBytes sb') :
      SameButBytes (.next ⟨sb, t⟩) (.next ⟨sb', t⟩)
  | finished {sb sb' : Sandbox} {results : List Value} (h : sb.SameButBytes sb') :
      SameButBytes (.finished results sb) (.finished results sb')
  | failed {sb sb' : Sandbox} {error : ExecutionError} (h : sb.SameButBytes sb') :
      SameButBytes (.failed error sb) (.failed error sb')

/-- Every byte is as it was; there may be more. -/
def Storage.KeepsBytes (st st' : Storage) : Prop :=
  ∀ (k : Nat) (m : Memory), st.memories[k]? = some m → ∃ m', st'.memories[k]? = some m' ∧
    ∀ address byte, m.byte? address = some byte → m'.byte? address = some byte

/-- The operator is the next one that the thread runs. -/
def Thread.Runs (t : Thread) (op : Operator) : Prop :=
  ∃ a code, t.control = .run a ∧ a.code = op :: code

section
variable (i : Instance) (op : Operator)

/-- What the operator does can depend on bytes of memories. -/
def Reads : Prop :=
  ∃ (t : Thread) (sb sb' : Sandbox), t.Runs op ∧ sb.SameButBytes sb' ∧
    ¬Step.SameButBytes (step i ⟨sb, t⟩) (step i ⟨sb', t⟩)

/-- The operator can change bytes of memories. -/
def Writes : Prop :=
  ∃ (t : Thread) (sb : Sandbox), t.Runs op ∧
    ¬sb.storage.KeepsBytes (stepSandbox (step i ⟨sb, t⟩)).storage

/-- The operator reads or writes bytes of linear memory. -/
def Touches : Prop := Reads i op ∨ Writes i op

end

/-- The operators that access memory. A lane that a vector does not have is not loaded. -/
def isAccess : Operator → Bool
  | .load _ _ | .store _ _ | .memoryInit _ _ | .memoryCopy _ _ | .memoryFill _ | .vectorLoad _ _
  | .vectorStore _ | .storeLane _ _ _ | .atomicWait _ _ | .atomic _ _ _ => true
  | .loadLane width _ lane => lane.toNat < width.count
  | _ => false

/-! ## Steps of code -/

/-- What a computation makes of the thread whose activation is `a`. -/
def computed (sb : Sandbox) (t : Thread) (a : Activation) :
    EStateM.Result Trap Storage (List Value × List Value) → Step
  | .ok (locals, operands) storage =>
    .next ⟨{ sb with storage }, { t with control := .run { a with locals, operands } }⟩
  | .error e storage => .failed (.trap e) { sb with storage }

/-- What control flow makes of a thread. -/
def moved (sb : Sandbox) : Except Trap Thread → Step
  | .ok t => .next ⟨sb, t⟩
  | .error e => .failed (.trap e) sb

section
variable {i : Instance} {sb : Sandbox} {t : Thread} {a : Activation} {op : Operator}
  {code : List Operator}

theorem step_of_flow {result : Except Trap Thread} (hrun : t.control = .run a)
    (hcode : a.code = op :: code)
    (hflow : flow? i sb.storage { a with code } t op = some result) :
    step i ⟨sb, t⟩ = moved sb result := by
  simp only [step, hrun, stepCode, hcode, hflow]
  cases result <;> rfl

theorem step_of_perform (hrun : t.control = .run a) (hcode : a.code = op :: code)
    (hflow : flow? i sb.storage { a with code } t op = none) :
    step i ⟨sb, t⟩ =
      computed sb t { a with code } (perform op a.locals a.operands sb.storage) := by
  simp only [step, hrun, stepCode, hcode, hflow]
  cases perform op a.locals a.operands sb.storage <;> rfl

end

/-- Of the storage, control flow looks at tables only. -/
theorem flow_congr {i : Instance} {st st' : Storage} (h : st'.tables = st.tables) (a : Activation)
    (t : Thread) (op : Operator) : flow? i st' a t op = flow? i st a t op := by
  have hindirect (type table : UInt32) (position : Value) :
      indirect i st' type table position = indirect i st type table position := by
    unfold indirect
    rw [h]
  unfold flow?
  simp only [hindirect]

/-! ## Operators that do not read -/

section
variable {i : Instance} {sb sb' : Sandbox} {t : Thread} {a : Activation} {op : Operator}
  {vs locals : List Value} {st st' : Storage}

theorem Storage.SameButBytes.tables (h : st.SameButBytes st') : st'.tables = st.tables := by
  have hid : (RefTable.mapFunc id) = id := by
    funext table
    simp [RefTable.mapFunc]
  have htables := Storage.Agrees.tables h
  rwa [hid, List.map_id] at htables

theorem mapFunc_id_eq : Value.mapFunc id = id := funext Value.mapFunc_id

/-- Whether a number can be loaded is a matter of sizes. -/
theorem loads_alike (h : st.SameButBytes st') (index address length : Nat) :
    Finds (fun _ _ => True) st st' (Action.loadNumber index address length)
      (Action.loadNumber index address length) := by
  rcases Storage.Agrees.memory_cases h index with ⟨hm, hm'⟩ | ⟨m, m', hm, hm', hagree⟩
  · exact .trap .unreachable (by simp [Action.loadNumber, hm]) (by simp [Action.loadNumber, hm'])
  · have hsize := hagree.holds address length
    cases hholds : m.holds address length with
    | false =>
      exact .trap .memoryOutOfBounds (by simp [Action.loadNumber, hm, Memory.load, hholds])
        (by simp [Action.loadNumber, hm', Memory.load, hsize, hholds])
    | true =>
      exact .ok _ _ (by simp [Action.loadNumber, hm, Memory.load, hholds]; rfl)
        (by simp [Action.loadNumber, hm', Memory.load, hsize, hholds]; rfl) trivial

/-- Waking waiters looks at the size of memory and at nothing in it. -/
theorem atomicNotify_alike (h : st.SameButBytes st') (arg : MemArg) :
    Alike Storage.SameButBytes (fun r r' => r' = r) (computeAtomic (.atomicNotify arg) vs st)
      (computeAtomic (.atomicNotify arg) vs st') := by
  rcases vs with _ | ⟨n, _ | ⟨base, vs⟩⟩
  iterate 2 exact .trap h
  refine Alike.ofExcept h n.index fun n _ => ?_
  refine Alike.ofExcept h (alignedAddress arg 4 base) fun a _ => ?_
  refine (loads_alike h arg.memory.toNat a 4).andThen h ?_
  rintro _ _ -
  exact .ok rfl h

/-- What is loaded is lost if there is no such lane. -/
theorem loadLane_alike (h : st.SameButBytes st') {width : LaneWidth} {arg : MemArg} {lane : UInt8}
    (hlane : width.count ≤ lane.toNat) :
    Alike Storage.SameButBytes (fun r r' => r' = r) (computeVector (.loadLane width arg lane) vs st)
      (computeVector (.loadLane width arg lane) vs st') := by
  have hlost (a b : BitVec width.bits) (v : BitVec 128) :
      replaceLaneAt lane.toNat a v = replaceLaneAt lane.toNat b v := by
    have hlength : (lanes width.bits v).length ≤ lane.toNat := by
      refine Nat.le_trans (Nat.le_of_eq ?_) hlane
      rw [lanes, lanesFrom, List.length_map, List.length_range]
      cases width <;> rfl
    rw [replaceLaneAt, replaceLaneAt, List.set_eq_of_length_le hlength,
      List.set_eq_of_length_le hlength]
  rcases vs with _ | ⟨v, _ | ⟨base, vs⟩⟩
  iterate 2 exact .trap h
  refine Alike.ofExcept h v.vector fun v _ => ?_
  refine Alike.ofExcept h (address arg base) fun a _ => ?_
  refine (loads_alike h arg.memory.toNat a width.bytes).andThen h ?_
  rintro n n' -
  exact .ok (by rw [hlost]) h

/-- The accesses that are noted are those of the operators that access memory; but for two that
only make sure that there is an address. -/
theorem accesses_of_not (hop : isAccess op = false) (hnotify : ∀ arg, op ≠ .atomicNotify arg)
    (hlane : ∀ width arg lane, op ≠ .loadLane width arg lane) : accesses op vs = [] := by
  unfold accesses
  split <;> first
    | rfl
    | exact absurd rfl (hnotify _)
    | exact absurd rfl (hlane _ _ _)
    | cases hop

theorem perform_alike (h : st.SameButBytes st') (hop : isAccess op = false) :
    Alike Storage.SameButBytes (fun r r' => r' = r) (perform op locals vs st)
      (perform op locals vs st') := by
  by_cases hnotify : ∃ arg, op = .atomicNotify arg
  · obtain ⟨arg, rfl⟩ := hnotify
    exact (atomicNotify_alike h arg).bind fun _ _ _ _ hvs hst => .ok (by rw [hvs]) hst
  · by_cases hload : ∃ width arg lane, op = .loadLane width arg lane
    · obtain ⟨width, arg, lane, rfl⟩ := hload
      have hlane : width.count ≤ lane.toNat := by simpa [isAccess] using hop
      exact (loadLane_alike h hlane).bind fun _ _ _ _ hvs hst => .ok (by rw [hvs]) hst
    · have hheeds : st.Heeds (fun _ _ => True) op vs := by
        intro access haccess
        rw [accesses_of_not hop (fun arg harg => hnotify ⟨arg, harg⟩)
          fun width arg lane hlane => hload ⟨width, arg, lane, hlane⟩] at haccess
        cases haccess
      have halike := @perform_agrees id (fun _ _ => True) st st' h op locals vs hheeds
      simp only [Operator.mapFunc_id, mapFunc_id_eq, List.map_id] at halike
      exact halike

/-- Steps that do the same to sandboxes that are the same but for bytes. -/
theorem sameButBytes_moved (h : sb.SameButBytes sb') (result : Except Trap Thread) :
    Step.SameButBytes (moved sb result) (moved sb' result) := by
  cases result with
  | ok t => exact .next h
  | error e => exact .failed h

theorem sameButBytes_computed {r r' : EStateM.Result Trap Storage (List Value × List Value)}
    (h : sb.SameButBytes sb') (halike : Alike Storage.SameButBytes (fun r r' => r' = r) r r') :
    Step.SameButBytes (computed sb t a r) (computed sb' t a r') := by
  have hothers := h.others
  cases halike with
  | ok hsame hst =>
    subst hsame
    exact .next ⟨hst, by rw [hothers]⟩
  | trap hst => exact .failed ⟨hst, by rw [hothers]⟩

theorem not_reads (hop : isAccess op = false) : ¬Reads i op := by
  rintro ⟨t, sb, sb', ⟨a, code, hrun, hcode⟩, hsame, hdiffer⟩
  have hflow := flow_congr hsame.storage.tables { a with code } t op (i := i)
  cases hresult : flow? i sb.storage { a with code } t op with
  | some result =>
    rw [hresult] at hflow
    rw [step_of_flow hrun hcode hresult, step_of_flow hrun hcode hflow] at hdiffer
    exact hdiffer (sameButBytes_moved hsame result)
  | none =>
    rw [hresult] at hflow
    rw [step_of_perform hrun hcode hresult, step_of_perform hrun hcode hflow] at hdiffer
    exact hdiffer (sameButBytes_computed hsame (perform_alike hsame.storage hop))

end

/-! ## Operators that do not write -/

namespace Storage

variable {st st' st'' : Storage}

theorem KeepsBytes.refl (st : Storage) : st.KeepsBytes st := fun _ m hm => ⟨m, hm, fun _ _ h => h⟩

theorem KeepsBytes.trans (h : st.KeepsBytes st') (h' : st'.KeepsBytes st'') :
    st.KeepsBytes st'' := by
  intro k m hm
  obtain ⟨m', hm', hbyte⟩ := h k m hm
  obtain ⟨m'', hm'', hbyte'⟩ := h' k m' hm'
  exact ⟨m'', hm'', fun address byte hb => hbyte' address byte (hbyte address byte hb)⟩

theorem KeepsBytes.of_memories (h : st'.memories = st.memories) : st.KeepsBytes st' :=
  fun _ m hm => ⟨m, by rw [h, hm], fun _ _ hb => hb⟩

end Storage

theorem Memory.byte_grow (m : Memory) {larger : Memory} {delta address : Nat} {byte : UInt8}
    (h : m.grow? delta = some larger) (hb : m.byte? address = some byte) :
    larger.byte? address = some byte := by
  simp only [grow?, Option.ite_none_right_eq_some, Option.some.injEq] at h
  obtain ⟨-, rfl⟩ := h
  obtain ⟨hlt, -⟩ := Array.getElem?_eq_some_iff.1 hb
  rw [byte?, byte_appendPages, if_pos (show address < m.bytes.size from hlt)]
  exact hb

instance : OnMemories Storage.KeepsBytes := ⟨.of_memories, .trans⟩

section
variable {i : Instance} {op : Operator}

theorem mayWrite_of_not_access (hop : isAccess op = false) : mayWrite op = false := by
  cases op <;> first | rfl | cases hop

/-- New pages stand behind what was there, and all that writes is an access. -/
theorem allows_keepsBytes (hop : isAccess op = false) : Allows Storage.KeepsBytes op := by
  refine ⟨fun st index delta m larger hm hgrow k m' hm' => ?_, fun hwrite => ?_⟩
  · change ∃ m'', (st.memories.modify index fun _ => larger)[k]? = some m'' ∧ _
    rw [List.getElem?_modify, hm']
    by_cases hk : index = k
    · subst hk
      cases hm.symm.trans hm'
      exact ⟨larger, by simp, fun address byte hb => m.byte_grow hgrow hb⟩
    · exact ⟨m', by simp [hk], fun _ _ hb => hb⟩
  · rw [mayWrite_of_not_access hop] at hwrite
    cases hwrite

theorem not_writes (hop : isAccess op = false) : ¬Writes i op := by
  rintro ⟨t, sb, ⟨a, code, hrun, hcode⟩, hchanged⟩
  cases hresult : flow? i sb.storage { a with code } t op with
  | some result =>
    rw [step_of_flow hrun hcode hresult] at hchanged
    cases result <;> exact hchanged (.refl sb.storage)
  | none =>
    have hkept := (perform_relates (allows_keepsBytes hop) a.operands a.locals).related sb.storage
    rw [step_of_perform hrun hcode hresult] at hchanged
    cases hperform : perform op a.locals a.operands sb.storage <;>
      · rw [hperform] at hkept hchanged
        exact hchanged hkept

end

/-! ## Memories that hold a number -/

namespace Memory

/-- A memory with a number at an address, and nothing behind it. -/
def holding (address length n : Nat) : Memory :=
  write ⟨⟨Array.replicate (address + length) 0⟩, 0, true, false⟩ address (LittleEndian.write length n)

variable {address length n : Nat}

theorem size_holding : (holding address length n).size = address + length := by
  have hsize : (⟨⟨Array.replicate (address + length) 0⟩, 0, true, false⟩ : Memory).size =
      address + length := by simp [size, ByteArray.size]
  rw [holding, size_write, hsize]
  rw [hsize, LittleEndian.length_write]

theorem holds_holding : (holding address length n).holds address length = true := by
  simp [holds, size_holding]

theorem load_holding (hn : n < 1 <<< (8 * length)) :
    (holding address length n).load address length = .ok n := by
  have hlength := LittleEndian.length_write length n
  have hextract : (holding address length n).extract address length =
      LittleEndian.write length n := by
    have hholds : (⟨⟨Array.replicate (address + length) 0⟩, 0, true, false⟩ : Memory).holds address
        (LittleEndian.write length n).length = true := by
      simp [holds, size, ByteArray.size, hlength]
    have hread := extract_write hholds (show 0 + length ≤ _ by omega)
    rwa [Nat.add_zero, List.drop_zero, List.take_of_length_le (Nat.le_of_eq hlength)] at hread
  rw [load, if_pos holds_holding, hextract, LittleEndian.value_write, Nat.mod_eq_of_lt hn]

/-- The byte that stands where a number has been written is its lowest one. -/
theorem byte_first {m : Memory} (hm : address + length ≤ m.size) (hlength : 0 < length) :
    (m.write address (LittleEndian.write length n)).byte? address = some (n % 256).toUInt8 := by
  rw [byte_write _ (by rwa [LittleEndian.length_write]), LittleEndian.length_write,
    if_pos (by omega), Nat.sub_self]
  obtain ⟨k, rfl⟩ := Nat.exists_eq_succ_of_ne_zero (Nat.ne_of_gt hlength)
  rfl

theorem byte_holding (hlength : 0 < length) :
    (holding address length n).byte? address = some (n % 256).toUInt8 :=
  byte_first (by simp [size, ByteArray.size]) hlength

theorem agrees_holding (n n' : Nat) :
    (holding address length n).Agrees (fun _ => True) (holding address length n') :=
  ⟨by rw [size_holding, size_holding], rfl, rfl, rfl, fun _ h => absurd trivial h⟩

end Memory

/-- A storage of such memories, with a zero in each data segment. -/
def cells (count : Nat) (m : Memory) : Storage :=
  ⟨List.replicate count m, [], [], [], List.replicate count [0]⟩

section
variable {index count length n : Nat} {m m' : Memory}

theorem cells_memory (h : index < count) : (cells count m).memories[index]? = some m := by
  simp [cells, h]

theorem memory_cells (h : index < count) :
    Action.memory index (cells count m) = .ok m (cells count m) := by
  simp [Action.memory, Action.find, cells_memory h]

theorem data_cells (h : index < count) :
    Action.data index (cells count m) = .ok [0] (cells count m) := by
  simp [Action.data, Action.find, cells, h]

theorem sameButBytes_cells (h : m.Agrees (fun _ => True) m') :
    (cells count m).SameButBytes (cells count m') where
  memoryCount := by simp [cells]
  memories k m₁ m₂ h₁ h₂ := by
    have hm₁ := List.eq_of_mem_replicate (List.mem_of_getElem? h₁)
    have hm₂ := List.eq_of_mem_replicate (List.mem_of_getElem? h₂)
    rwa [hm₁, hm₂]
  tables := rfl
  globals := rfl
  elements := rfl
  datas := by simp [cells]

theorem loadNumber_cells (address : Nat) (h : index < count) (hn : n < 1 <<< (8 * length)) :
    Action.loadNumber index address length (cells count (.holding address length n)) =
      .ok n (cells count (.holding address length n)) := by
  simp [Action.loadNumber, cells_memory h, Memory.load_holding hn]

theorem storeNumber_cells (address n' : Nat) (h : index < count) :
    Action.storeNumber index address length n' (cells count (.holding address length n)) =
      .ok () ((cells count (.holding address length n)).modifyMemory index
        (·.write address (LittleEndian.write length n'))) := by
  simp [Action.storeNumber, Action.writeMemory, Action.changeIf, Action.memoryHolds,
    cells_memory h, LittleEndian.length_write, Memory.holds_holding]

end

/-! ## Operators that read -/

/-- A thread about to run an operator on these operands. -/
def Thread.about (op : Operator) (operands : List Value) : Thread :=
  ⟨.run ⟨0, 0, [], operands, [], [op]⟩, [], 0⟩

section
variable {i : Instance} {op : Operator} {st st' st₁ st₁' : Storage} {vs ws ws' : List Value}

theorem step_about (hop : isAccess op = true) (hcompute : compute op vs st = .ok ws st₁) :
    step i ⟨⟨st, 0, false, [], []⟩, .about op vs⟩ =
      .next ⟨⟨st₁, 0, false, [], []⟩, ⟨.run ⟨0, 0, [], ws, [], []⟩, [], 0⟩⟩ := by
  have hflow : flow? i st ⟨0, 0, [], vs, [], []⟩ (.about op vs) op = none := by
    cases op <;> first | rfl | cases hop
  have hperform : perform op [] vs st = .ok ([], ws) st₁ := by
    have hbind : (compute op vs >>= fun vs => pure ([], vs)) st = .ok (([] : List Value), ws) st₁ :=
      bind_of_ok hcompute
    cases op <;> first | exact hbind | cases hop
  have hstep := @step_of_perform i ⟨st, 0, false, [], []⟩ (.about op vs) _ op [] rfl rfl hflow
  rw [hperform] at hstep
  exact hstep

theorem reads_of_compute (hop : isAccess op = true) (hsame : st.SameButBytes st')
    (hcompute : compute op vs st = .ok ws st₁) (hcompute' : compute op vs st' = .ok ws' st₁')
    (hne : ws ≠ ws') : Reads i op := by
  refine ⟨.about op vs, ⟨st, 0, false, [], []⟩, ⟨st', 0, false, [], []⟩, ⟨_, [], rfl, rfl⟩,
    ⟨hsame, rfl⟩, fun h => ?_⟩
  rw [step_about hop hcompute, step_about hop hcompute'] at h
  cases h
  exact hne rfl

theorem writes_of_compute (hop : isAccess op = true) (hcompute : compute op vs st = .ok ws st₁)
    (hchanged : ¬st.KeepsBytes st₁) : Writes i op := by
  refine ⟨.about op vs, ⟨st, 0, false, [], []⟩, ⟨_, [], rfl, rfl⟩, fun h => hchanged ?_⟩
  rw [step_about hop hcompute] at h
  exact h

theorem ofExcept_bind {α β : Type} {e : Except Trap α} {k : α → Action β} {a : α}
    (h : e = .ok a) : (Action.ofExcept e >>= k) st = k a st := by
  rw [h]
  rfl

/-- The address of an access is its offset, if its base is zero. -/
theorem address_zero (arg : MemArg) : address arg (.i32 0) = .ok arg.offset.toNat := by
  simp [address, Value.index, pure, Except.pure, bind, Except.bind]

/-- An operator reads if what it leaves depends on the number that memory holds. -/
theorem reads_of_loads (vs : List Value) (count address : Nat) {length : Nat}
    (hop : isAccess op = true) (hlength : 0 < length) (found : Nat → List Value)
    (hne : found 0 ≠ found 1) (hcompute : ∀ n, n < 1 <<< (8 * length) →
      ∃ st, compute op vs (cells count (.holding address length n)) = .ok (found n) st) :
    Reads i op := by
  have hone : 1 < 1 <<< (8 * length) := by
    rw [Nat.one_shiftLeft]
    exact Nat.one_lt_two_pow (by omega)
  obtain ⟨st₀, h₀⟩ := hcompute 0 (by omega)
  obtain ⟨st₁, h₁⟩ := hcompute 1 hone
  exact reads_of_compute hop (sameButBytes_cells (Memory.agrees_holding 0 1)) h₀ h₁ hne

theorem bytes_pos (n : Nat) : 0 < 1 <<< n := by
  rw [Nat.one_shiftLeft]
  exact Nat.two_pow_pos n

theorem reads_load (op : Load) (arg : MemArg) : Reads i (.load op arg) := by
  refine reads_of_loads [.i32 0] (arg.memory.toNat + 1) arg.offset.toNat rfl
    (bytes_pos op.align) (fun n => [op.value n]) ?_ fun n hn => ?_
  · cases op <;> first | decide | (rename_i sign; cases sign <;> decide)
  · have hload := loadNumber_cells arg.offset.toNat (Nat.lt_succ_self arg.memory.toNat) hn
    exact ⟨_, (ofExcept_bind (address_zero arg)).trans (bind_of_ok hload)⟩

theorem reads_vectorLoad (op : VectorLoad) (arg : MemArg) : Reads i (.vectorLoad op arg) := by
  refine reads_of_loads [.i32 0] (arg.memory.toNat + 1) arg.offset.toNat rfl
    (bytes_pos op.align) (fun n => [.v128 (op.value n)]) ?_ fun n hn => ?_
  · cases op with
    | full => decide
    | widen source sign => cases source <;> cases sign <;> decide
    | splat width => cases width <;> decide
    | zeroExtend width => cases width <;> decide
  · have hload := loadNumber_cells arg.offset.toNat (Nat.lt_succ_self arg.memory.toNat) hn
    exact ⟨_, (ofExcept_bind (address_zero arg)).trans (bind_of_ok hload)⟩

theorem replaceLane_ne {width : LaneWidth} : ∀ lane < width.count,
    replaceLaneAt lane (BitVec.ofNat width.bits 0) 0 ≠
      replaceLaneAt lane (BitVec.ofNat width.bits 1) 0 := by
  cases width <;> decide +kernel

theorem reads_loadLane {width : LaneWidth} {lane : UInt8} (hlane : lane.toNat < width.count)
    (arg : MemArg) : Reads i (.loadLane width arg lane) := by
  have hbytes : 0 < width.bytes := by cases width <;> decide
  refine reads_of_loads [.v128 0, .i32 0] (arg.memory.toNat + 1) arg.offset.toNat
    (by simpa [isAccess] using hlane) hbytes
    (fun n => [.v128 (replaceLaneAt lane.toNat (BitVec.ofNat width.bits n) 0)]) ?_ fun n hn => ?_
  · intro h
    have hvector := (List.cons.inj h).1
    exact replaceLane_ne _ hlane (Value.v128.inj hvector)
  · have hload := loadNumber_cells arg.offset.toNat (Nat.lt_succ_self arg.memory.toNat) hn
    exact ⟨_, (ofExcept_bind rfl).trans
      ((ofExcept_bind (address_zero arg)).trans (bind_of_ok hload))⟩

/-- Every offset can be reached by an aligned access. -/
theorem exists_aligned (arg : MemArg) {bytes : Nat} (hpos : 0 < bytes) (hbytes : bytes ≤ 8) :
    ∃ base a, alignedAddress arg bytes base = .ok a := by
  have hgap : ∃ gap < 2 ^ 32, (gap + arg.offset.toNat) % bytes = 0 := by
    have hlt := Nat.mod_lt (bytes - arg.offset.toNat % bytes) hpos
    have hle := Nat.le_of_lt (Nat.mod_lt arg.offset.toNat hpos)
    refine ⟨(bytes - arg.offset.toNat % bytes) % bytes, by omega, ?_⟩
    rw [Nat.mod_add_mod, ← Nat.add_mod_mod, Nat.sub_add_cancel hle, Nat.mod_self]
  obtain ⟨gap, hlt, haligned⟩ := hgap
  refine ⟨.i32 (BitVec.ofNat 32 gap), gap + arg.offset.toNat, ?_⟩
  have hstart : address arg (.i32 (BitVec.ofNat 32 gap)) = .ok (gap + arg.offset.toNat) := by
    change Except.ok ((BitVec.ofNat 32 gap).toNat + arg.offset.toNat) = _
    rw [BitVec.toNat_ofNat, Nat.mod_eq_of_lt hlt]
  rw [alignedAddress, hstart, except_ok_bind, if_pos haligned]
  rfl

theorem int_ofInt (w : Width) (v : BitVec w.bits) : (Value.ofInt w v).int w = .ok v := by
  cases w <;> rfl

theorem reads_atomicWait (width : Width) (arg : MemArg) : Reads i (.atomicWait width arg) := by
  have hpos : 0 < width.lane.bytes := by cases width <;> decide
  obtain ⟨base, a, ha⟩ := exists_aligned arg hpos (by cases width <;> decide)
  refine reads_of_loads [.i64 0, .ofInt width 0, base] (arg.memory.toNat + 1) a rfl hpos
    (fun n => [waitResult (0 : BitVec width.bits).toNat n]) ?_ fun n hn => ?_
  · cases width <;> decide
  · have hload := loadNumber_cells a (Nat.lt_succ_self arg.memory.toNat) hn
    exact ⟨_, (ofExcept_bind rfl).trans ((ofExcept_bind (int_ofInt width 0)).trans
      ((ofExcept_bind ha).trans ((bind_of_ok hload).trans
        (bind_of_ok (memory_cells (Nat.lt_succ_self _))))))⟩

theorem found_ne (width : AtomicWidth) :
    [Value.ofInt width.word (BitVec.ofNat _ 0)] ≠ [.ofInt width.word (BitVec.ofNat _ 1)] := by
  cases width <;> decide

theorem exists_of_ite {α : Type} {c : Prop} [Decidable c] {x y : Action α} {r : α}
    (hx : ∃ st', x st = .ok r st') (hy : ∃ st', y st = .ok r st') :
    ∃ st', (if c then x else y) st = .ok r st' := by
  split
  · exact hx
  · exact hy

/-- Whatever is done to it, what has been read is left on the stack. -/
theorem reads_atomic {action : AtomicAction} (haction : action ≠ .store) (width : AtomicWidth)
    (arg : MemArg) : Reads i (.atomic action width arg) := by
  have hpos : 0 < width.bytes := bytes_pos width.align
  obtain ⟨base, a, ha⟩ := exists_aligned arg hpos (by cases width <;> decide)
  have hzero := int_ofInt width.word 0
  have hmemory := Nat.lt_succ_self arg.memory.toNat
  cases action with
  | store => exact absurd rfl haction
  | load =>
    refine reads_of_loads [base] (arg.memory.toNat + 1) a rfl hpos
      (fun n => [.ofInt width.word (BitVec.ofNat _ n)]) (found_ne width) fun n hn => ?_
    exact ⟨_, (ofExcept_bind ha).trans (bind_of_ok (loadNumber_cells a hmemory hn))⟩
  | compareExchange =>
    refine reads_of_loads [.ofInt width.word 0, .ofInt width.word 0, base] (arg.memory.toNat + 1) a
      rfl hpos (fun n => [.ofInt width.word (BitVec.ofNat _ n)]) (found_ne width) fun n hn => ?_
    have hload := loadNumber_cells a hmemory hn
    have hcompute : compute (.atomic .compareExchange width arg)
        [.ofInt width.word 0, .ofInt width.word 0, base]
        (cells (arg.memory.toNat + 1) (.holding a width.bytes n)) = _ :=
      (ofExcept_bind hzero).trans ((ofExcept_bind hzero).trans ((ofExcept_bind ha).trans
        (bind_of_ok hload)))
    simp only [hcompute]
    exact exists_of_ite ⟨_, bind_of_ok (storeNumber_cells a _ hmemory)⟩ ⟨_, rfl⟩
  | _ =>
    refine reads_of_loads [.ofInt width.word 0, base] (arg.memory.toNat + 1) a rfl hpos
      (fun n => [.ofInt width.word (BitVec.ofNat _ n)]) (found_ne width) fun n hn => ?_
    have hload := loadNumber_cells a hmemory hn
    exact ⟨_, (ofExcept_bind hzero).trans ((ofExcept_bind ha).trans ((bind_of_ok hload).trans
      (bind_of_ok (storeNumber_cells a _ hmemory))))⟩

/-! ## Operators that write -/

theorem not_keepsBytes {index address : Nat} {m : Memory} {f : Memory → Memory} {byte byte' : UInt8}
    (hm : st.memories[index]? = some m) (hb : m.byte? address = some byte)
    (hb' : (f m).byte? address = some byte') (hne : byte ≠ byte') :
    ¬st.KeepsBytes (st.modifyMemory index f) := by
  intro h
  obtain ⟨m', hm', hbyte⟩ := h index m hm
  simp only [Storage.modifyMemory, List.getElem?_modify_eq, hm, Option.map_eq_map, Option.map_some,
    Option.some.injEq] at hm'
  subst hm'
  have hsame := (hbyte address byte hb).symm.trans hb'
  exact hne (Option.some.inj hsame)

/-- An operator writes if it puts a zero over a one. -/
theorem writes_of_store (vs : List Value) {count index address length : Nat} (hop : isAccess op = true)
    (hindex : index < count) (hlength : 0 < length)
    (hcompute : compute op vs (cells count (.holding address length 1)) = .ok ws
      ((cells count (.holding address length 1)).modifyMemory index
        (·.write address (LittleEndian.write length 0)))) : Writes i op := by
  refine writes_of_compute hop hcompute ?_
  refine not_keepsBytes (cells_memory hindex) (Memory.byte_holding hlength)
    (Memory.byte_first ?_ hlength) (by decide)
  rw [Memory.size_holding]

theorem writes_store (op : Store) (arg : MemArg) : Writes i (.store op arg) := by
  have hnumber : ∃ v, op.number v = .ok 0 := by
    cases op <;> first
      | exact ⟨.i32 0, rfl⟩
      | exact ⟨.i64 0, rfl⟩
      | exact ⟨.f32 0, rfl⟩
      | exact ⟨.f64 0, rfl⟩
  obtain ⟨v, hv⟩ := hnumber
  have hmemory := Nat.lt_succ_self arg.memory.toNat
  exact writes_of_store [v, .i32 0] rfl hmemory (bytes_pos op.align)
    ((ofExcept_bind hv).trans ((ofExcept_bind (address_zero arg)).trans
      (bind_of_ok (storeNumber_cells _ 0 hmemory))))

theorem writes_vectorStore (arg : MemArg) : Writes i (.vectorStore arg) := by
  have hmemory := Nat.lt_succ_self arg.memory.toNat
  exact writes_of_store [.v128 0, .i32 0] rfl hmemory (by decide : 0 < 16)
    ((ofExcept_bind rfl).trans ((ofExcept_bind (address_zero arg)).trans
      (bind_of_ok (storeNumber_cells _ 0 hmemory))))

theorem writes_storeLane (width : LaneWidth) (arg : MemArg) (lane : UInt8) :
    Writes i (.storeLane width arg lane) := by
  have hmemory := Nat.lt_succ_self arg.memory.toNat
  have hlane : (laneAt width.bits lane.toNat 0).toNat = 0 := by simp [laneAt]
  have hcompute : compute (.storeLane width arg lane) [.v128 0, .i32 0]
      (cells (arg.memory.toNat + 1) (.holding arg.offset.toNat width.bytes 1)) = _ :=
    (ofExcept_bind rfl).trans ((ofExcept_bind (address_zero arg)).trans
      (bind_of_ok (storeNumber_cells _ (laneAt width.bits lane.toNat 0).toNat hmemory)))
  rw [hlane] at hcompute
  exact writes_of_store _ rfl hmemory (by cases width <;> decide) hcompute

theorem writes_atomicStore (width : AtomicWidth) (arg : MemArg) :
    Writes i (.atomic .store width arg) := by
  have hpos : 0 < width.bytes := bytes_pos width.align
  obtain ⟨base, a, ha⟩ := exists_aligned arg hpos (by cases width <;> decide)
  have hmemory := Nat.lt_succ_self arg.memory.toNat
  exact writes_of_store [.ofInt width.word 0, base] rfl hmemory hpos
    ((ofExcept_bind (int_ofInt width.word 0)).trans ((ofExcept_bind ha).trans
      (bind_of_ok (storeNumber_cells _ 0 hmemory))))

theorem changeIf_of_true {condition : Storage → Bool} {t : Trap} {f : Storage → Storage}
    (h : condition st = true) : Action.changeIf condition t f st = .ok () (f st) := by
  rw [Action.changeIf, if_pos h]

theorem memoryHolds_cells {index count address length : Nat} {m : Memory} (h : index < count)
    (hholds : m.holds address length = true) :
    Action.memoryHolds index address length (cells count m) = true := by
  simp [Action.memoryHolds, cells_memory h, hholds]

theorem writes_memoryInit (segment memory : UInt32) : Writes i (.memoryInit segment memory) := by
  have hmemory : memory.toNat < max segment.toNat memory.toNat + 1 := by omega
  have hsegment : segment.toNat < max segment.toNat memory.toNat + 1 := by omega
  exact writes_of_store [.i32 1, .i32 0, .i32 0] rfl hmemory Nat.one_pos
    ((ofExcept_bind rfl).trans ((ofExcept_bind rfl).trans ((ofExcept_bind rfl).trans
      ((bind_of_ok (data_cells hsegment)).trans ((bind_of_ok rfl).trans
        (bind_of_ok (changeIf_of_true (memoryHolds_cells hmemory Memory.holds_holding))))))))

/-- An operator writes if it puts other bytes over a one. -/
theorem writes_of_overwrite (vs : List Value) {count index length start : Nat}
    {source : ByteArray} (hop : isAccess op = true) (hindex : index < count) (hlength : 0 < length)
    (hsource : start + 1 ≤ source.size) (hbyte : source.data[start]? = some 0)
    (hcompute : compute op vs (cells count (.holding 0 length 1)) = .ok ws
      ((cells count (.holding 0 length 1)).modifyMemory index
        (·.overwrite 0 source start 1))) : Writes i op := by
  refine writes_of_compute hop hcompute ?_
  have hsize : 0 + 1 ≤ (Memory.holding 0 length 1).size := by
    rw [Memory.size_holding]
    omega
  have hzero : ((Memory.holding 0 length 1).overwrite 0 source start 1).byte? 0 = some 0 := by
    rw [Memory.byte?_overwrite _ hsize hsource, if_pos (by omega)]
    exact hbyte
  exact not_keepsBytes (cells_memory hindex) (Memory.byte_holding hlength) hzero (by decide)

theorem writes_memoryFill (memory : UInt32) : Writes i (.memoryFill memory) := by
  have hmemory := Nat.lt_succ_self memory.toNat
  exact writes_of_overwrite [.i32 1, .i32 0, .i32 0] rfl hmemory Nat.one_pos (Nat.le_refl 1) rfl
    ((ofExcept_bind rfl).trans ((ofExcept_bind rfl).trans ((ofExcept_bind rfl).trans
      (bind_of_ok (changeIf_of_true (memoryHolds_cells hmemory Memory.holds_holding))))))

theorem writes_memoryCopy (target source : UInt32) : Writes i (.memoryCopy target source) := by
  have htarget : target.toNat < max target.toNat source.toNat + 1 := by omega
  have hsource : source.toNat < max target.toNat source.toNat + 1 := by omega
  have hholds : ∀ address, address < 2 → (Memory.holding 0 2 1).holds address 1 = true := by
    intro address h
    simp only [Memory.holds, Memory.size_holding, decide_eq_true_eq]
    omega
  have hcopy : Action.copyMemory target.toNat source.toNat 0 1 1
      (cells (max target.toNat source.toNat + 1) (.holding 0 2 1)) =
      .ok () ((cells (max target.toNat source.toNat + 1) (.holding 0 2 1)).modifyMemory
        target.toNat (·.overwrite 0 (Memory.holding 0 2 1).bytes 1 1)) := by
    refine (bind_of_ok (memory_cells hsource)).trans (changeIf_of_true ?_)
    rw [memoryHolds_cells hsource (hholds 1 (by decide)),
      memoryHolds_cells htarget (hholds 0 (by decide))]
    rfl
  exact writes_of_overwrite [.i32 1, .i32 1, .i32 0] rfl htarget Nat.two_pos (Nat.le_refl 2)
    (by decide) ((ofExcept_bind rfl).trans ((ofExcept_bind rfl).trans ((ofExcept_bind rfl).trans
      (bind_of_ok hcopy))))

theorem touches_of_isAccess (hop : isAccess op = true) : Touches i op := by
  cases op with
  | load op arg => exact .inl (reads_load op arg)
  | store op arg => exact .inr (writes_store op arg)
  | memoryInit segment memory => exact .inr (writes_memoryInit segment memory)
  | memoryCopy target source => exact .inr (writes_memoryCopy target source)
  | memoryFill memory => exact .inr (writes_memoryFill memory)
  | vectorLoad op arg => exact .inl (reads_vectorLoad op arg)
  | vectorStore arg => exact .inr (writes_vectorStore arg)
  | loadLane width arg lane => exact .inl (reads_loadLane (by simpa [isAccess] using hop) arg)
  | storeLane width arg lane => exact .inr (writes_storeLane width arg lane)
  | atomicWait width arg => exact .inl (reads_atomicWait width arg)
  | atomic action width arg =>
    by_cases haction : action = .store
    · subst haction
      exact .inr (writes_atomicStore width arg)
    · exact .inl (reads_atomic haction width arg)
  | _ => cases hop

/-- In any instance, the operators that read or write bytes of memory are those that access it. -/
theorem touches_iff : Touches i op ↔ isAccess op = true := by
  refine ⟨fun h => ?_, touches_of_isAccess⟩
  by_contra hop
  rcases h with h | h
  · exact not_reads (Bool.eq_false_iff.2 hop) h
  · exact not_writes (Bool.eq_false_iff.2 hop) h

end

end MeteredWasm.Machine
