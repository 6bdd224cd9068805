import MeteredWasm.Machine.Memory
import MeteredWasm.Wasm.Value

/-!
# The storage of an instance

Everything that code can change and that outlives a call: memories, tables, globals, and the
segments that have not been dropped. A dropped segment is empty.

An `Action` works on the storage and may trap. What it did before the trap stays done.
-/

set_option autoImplicit false

namespace MeteredWasm.Machine

open Wasm

/-- A table of references; each is a function or null. -/
structure RefTable where
  items : Array (Option UInt32)
  maxSize : Nat
  /-- Whether positions have 64 bits. -/
  is64 : Bool

structure Storage where
  memories : List Memory
  tables : List RefTable
  globals : List Value
  elements : List (List (Option UInt32))
  datas : List Bytes

namespace Storage

def empty : Storage := ⟨[], [], [], [], []⟩

def modifyMemory (index : Nat) (f : Memory → Memory) : Storage → Storage
  | ⟨memories, tables, globals, elements, datas⟩ =>
    ⟨memories.modify index f, tables, globals, elements, datas⟩

def modifyTable (index : Nat) (f : RefTable → RefTable) : Storage → Storage
  | ⟨memories, tables, globals, elements, datas⟩ =>
    ⟨memories, tables.modify index f, globals, elements, datas⟩

end Storage

/-- A computation on the storage that may trap. -/
abbrev Action := EStateM Trap Storage

namespace Action

variable {α : Type}

def trap (t : Trap) : Action α := fun st => .error t st

def ofExcept : Except Trap α → Action α
  | .ok a => pure a
  | .error t => trap t

instance : MonadLift (Except Trap) Action := ⟨ofExcept⟩

/-- A part of the storage; code that names what is not there is not valid. -/
def find (f : Storage → Option α) : Action α := fun st =>
  match f st with
  | some a => .ok a st
  | none => .error .unreachable st

/-- Changes the storage if the condition holds on it, and traps otherwise. -/
def changeIf (condition : Storage → Bool) (t : Trap) (f : Storage → Storage) : Action Unit :=
  fun st => if condition st then .ok () (f st) else .error t st

/-! ## Memory -/

def memory (index : Nat) : Action Memory := find (·.memories[index]?)

def memoryHolds (index address length : Nat) (st : Storage) : Bool :=
  (st.memories[index]?).any (·.holds address length)

def loadNumber (index address length : Nat) : Action Nat := fun st =>
  match st.memories[index]? with
  | none => .error .unreachable st
  | some m =>
    match m.load address length with
    | .ok n => .ok n st
    | .error t => .error t st

def writeMemory (index address : Nat) (bs : Bytes) : Action Unit :=
  changeIf (memoryHolds index address bs.length) .memoryOutOfBounds
    (·.modifyMemory index (·.write address bs))

/-- Writes the lower `length` bytes of a number. -/
def storeNumber (index address length n : Nat) : Action Unit :=
  writeMemory index address (LittleEndian.write length n)

/-- Copies bytes between memories, or inside one as if they were all read before the first is
written. -/
def copyMemory (target source address start length : Nat) : Action Unit := do
  let from_ ← memory source
  changeIf (fun st => memoryHolds source start length st && memoryHolds target address length st)
    .memoryOutOfBounds (·.modifyMemory target (·.overwrite address from_.bytes start length))

/-- Fills a range; `byte` is not built for a range that is not there. -/
def fillMemory (index address length : Nat) (byte : UInt8) : Action Unit :=
  changeIf (memoryHolds index address length) .memoryOutOfBounds
    (·.modifyMemory index (·.overwrite address ⟨Array.replicate length byte⟩ 0 length))

/-- The size in pages before growing, or `-1` if the memory cannot grow. -/
def growMemory (index delta : Nat) : Action Value := do
  let m ← memory index
  let before := m.pages
  match m.grow? delta with
  | none => return .noIndex m.is64
  | some larger =>
    modify (·.modifyMemory index fun _ => larger)
    return .ofIndex m.is64 before

/-! ## Tables -/

def table (index : Nat) : Action RefTable := find (·.tables[index]?)

/-- The greatest size that a table can grow to, whatever it declares. -/
def tableCeiling : Nat := 10000000

def tableGet (index position : Nat) : Action (Option UInt32) := do
  match (← table index).items[position]? with
  | some item => return item
  | none => trap .tableOutOfBounds

/-- Puts references into a table in a row. -/
def writeTable (index position : Nat) (items : List (Option UInt32)) : Action Unit :=
  changeIf (fun st => (st.tables[index]?).any fun t => position + items.length ≤ t.items.size)
    .tableOutOfBounds
    (·.modifyTable index fun t =>
      { t with items := t.items.extract 0 position ++ items.toArray ++
          t.items.extract (position + items.length) t.items.size })

/-- The `length` items of a list from `start` on. -/
def slice? {β : Type} (items : List β) (start length : Nat) : Option (List β) :=
  if start + length ≤ items.length then some ((items.drop start).take length) else none

def sliceOr {β : Type} (t : Trap) (items : List β) (start length : Nat) : Action (List β) :=
  match slice? items start length with
  | some part => pure part
  | none => trap t

/-- The size before growing, or `-1` if the table cannot grow. -/
def growTable (index delta : Nat) (item : Option UInt32) : Action Value := do
  let t ← table index
  let before := t.items.size
  if before + delta ≤ min t.maxSize tableCeiling then
    modify (·.modifyTable index fun t => { t with items := t.items ++ Array.replicate delta item })
    return .ofIndex t.is64 before
  else return .noIndex t.is64

/-! ## Segments and globals -/

def data (index : Nat) : Action Bytes := find (·.datas[index]?)

def element (index : Nat) : Action (List (Option UInt32)) := find (·.elements[index]?)

def global (index : Nat) : Action Value := find (·.globals[index]?)

def setGlobal (index : Nat) (v : Value) : Action Unit :=
  modify fun st => { st with globals := st.globals.set index v }

def dropData (index : Nat) : Action Unit :=
  modify fun st => { st with datas := st.datas.set index [] }

def dropElement (index : Nat) : Action Unit :=
  modify fun st => { st with elements := st.elements.set index [] }

end Action

end MeteredWasm.Machine
