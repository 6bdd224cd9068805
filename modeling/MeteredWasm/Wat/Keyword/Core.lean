import MeteredWasm.Wat.Keyword.Basic

/-!
# Keywords of the core language

Names of numeric operators are put together from the name of a type and the name of an operation,
those of memory accesses from a type, a width and an action.
-/

set_option autoImplicit false

namespace MeteredWasm.Wat.Keyword

open Wasm

/-! ## Numeric operators -/

def intRelations : List String :=
  ["eq", "ne", "lt_s", "lt_u", "gt_s", "gt_u", "le_s", "le_u", "ge_s", "ge_u"]

def intUnaries : List String := ["clz", "ctz", "popcnt"]

def intBinaries : List String :=
  ["add", "sub", "mul", "div_s", "div_u", "rem_s", "rem_u", "and", "or", "xor", "shl", "shr_s",
    "shr_u", "rotl", "rotr"]

def floatRelations : List String := ["eq", "ne", "lt", "gt", "le", "ge"]

def floatUnaries : List String := ["abs", "neg", "ceil", "floor", "trunc", "nearest", "sqrt"]

def floatBinaries : List String := ["add", "sub", "mul", "div", "min", "max", "copysign"]

def conversions : List String :=
  ["i32.wrap_i64", "i32.trunc_f32_s", "i32.trunc_f32_u", "i32.trunc_f64_s", "i32.trunc_f64_u",
    "i64.extend_i32_s", "i64.extend_i32_u", "i64.trunc_f32_s", "i64.trunc_f32_u",
    "i64.trunc_f64_s", "i64.trunc_f64_u", "f32.convert_i32_s", "f32.convert_i32_u",
    "f32.convert_i64_s", "f32.convert_i64_u", "f32.demote_f64", "f64.convert_i32_s",
    "f64.convert_i32_u", "f64.convert_i64_s", "f64.convert_i64_u", "f64.promote_f32",
    "i32.reinterpret_f32", "i64.reinterpret_f64", "f32.reinterpret_i32", "f64.reinterpret_i64",
    "i32.extend8_s", "i32.extend16_s", "i64.extend8_s", "i64.extend16_s", "i64.extend32_s"]

def saturating : List String :=
  ["i32.trunc_sat_f32_s", "i32.trunc_sat_f32_u", "i32.trunc_sat_f64_s", "i32.trunc_sat_f64_u",
    "i64.trunc_sat_f32_s", "i64.trunc_sat_f32_u", "i64.trunc_sat_f64_s", "i64.trunc_sat_f64_u"]

/-- The names of the operators in `Numeric.table`, in its order. -/
def numericNames : List String :=
  List.flatten
    [typed "i32" ("eqz" :: intRelations), typed "i64" ("eqz" :: intRelations),
      typed "f32" floatRelations, typed "f64" floatRelations, typed "i32" intUnaries,
      typed "i32" intBinaries, typed "i64" intUnaries, typed "i64" intBinaries,
      typed "f32" floatUnaries, typed "f32" floatBinaries, typed "f64" floatUnaries,
      typed "f64" floatBinaries, conversions]

def numeric : List (String × Form) :=
  (numericNames.zip Numeric.table ++ saturating.zip Numeric.saturatingTable).map
    fun (name, op) => (name, .plain (.numeric op))

/-! ## Memory -/

def loads : List (String × Load) :=
  [("i32.load", .i32), ("i64.load", .i64), ("f32.load", .f32), ("f64.load", .f64),
    ("i32.load8_s", .i32From8 .signed), ("i32.load8_u", .i32From8 .unsigned),
    ("i32.load16_s", .i32From16 .signed), ("i32.load16_u", .i32From16 .unsigned),
    ("i64.load8_s", .i64From8 .signed), ("i64.load8_u", .i64From8 .unsigned),
    ("i64.load16_s", .i64From16 .signed), ("i64.load16_u", .i64From16 .unsigned),
    ("i64.load32_s", .i64From32 .signed), ("i64.load32_u", .i64From32 .unsigned)]

def stores : List (String × Store) :=
  [("i32.store", .i32), ("i64.store", .i64), ("f32.store", .f32), ("f64.store", .f64),
    ("i32.store8", .i32To8), ("i32.store16", .i32To16), ("i64.store8", .i64To8),
    ("i64.store16", .i64To16), ("i64.store32", .i64To32)]

/-- The type that an atomic access works on, the width in its name and what ends the name of those
that are narrower than the type. -/
def atomicWidths : List (String × String × String × AtomicWidth) :=
  [("i32", "", "", .i32), ("i32", "8", "_u", .i32Low8), ("i32", "16", "_u", .i32Low16),
    ("i64", "", "", .i64), ("i64", "8", "_u", .i64Low8), ("i64", "16", "_u", .i64Low16),
    ("i64", "32", "_u", .i64Low32)]

def atomicActions : List (String × AtomicAction) :=
  [("add", .add), ("sub", .sub), ("and", .and), ("or", .or), ("xor", .xor), ("xchg", .exchange),
    ("cmpxchg", .compareExchange)]

/-- The accesses of one width. -/
def atomicAccessesOf (type width ending : String) (w : AtomicWidth) : List (String × Form) :=
  (type ++ ".atomic.load" ++ width ++ ending, .access w.align (.atomic .load w)) ::
    (type ++ ".atomic.store" ++ width, .access w.align (.atomic .store w)) ::
    atomicActions.map fun (name, action) =>
      (type ++ ".atomic.rmw" ++ width ++ "." ++ name ++ ending, .access w.align (.atomic action w))

def atomicAccesses : List (String × Form) :=
  atomicWidths.flatMap fun (type, width, ending, w) => atomicAccessesOf type width ending w

def otherAccesses : List (String × Form) :=
  [("memory.atomic.notify", .access 2 .atomicNotify),
    ("memory.atomic.wait32", .access 2 (.atomicWait .w32)),
    ("memory.atomic.wait64", .access 3 (.atomicWait .w64)), ("atomic.fence", .plain .atomicFence),
    ("memory.size", .optionalIndex .memories .memorySize),
    ("memory.grow", .optionalIndex .memories .memoryGrow),
    ("memory.fill", .optionalIndex .memories .memoryFill), ("data.drop", .index .datas .dataDrop)]

def memory : List (String × Form) :=
  List.flatten
    [loads.map fun (name, op) => (name, .access op.align (.load op)),
      stores.map fun (name, op) => (name, .access op.align (.store op)), atomicAccesses,
      otherAccesses]

/-! ## Everything else -/

def other : List (String × Form) :=
  [("unreachable", .plain .unreachable), ("nop", .plain .nop), ("return", .plain .ret),
    ("drop", .plain .drop), ("br", .label .br), ("br_if", .label .brIf),
    ("call", .index .funcs .call), ("return_call", .index .funcs .returnCall),
    ("ref.func", .index .funcs .refFunc), ("ref.is_null", .plain .refIsNull),
    ("local.get", .index .locals .localGet), ("local.set", .index .locals .localSet),
    ("local.tee", .index .locals .localTee), ("global.get", .index .globals .globalGet),
    ("global.set", .index .globals .globalSet), ("elem.drop", .index .elements .elemDrop),
    ("table.get", .optionalIndex .tables .tableGet),
    ("table.set", .optionalIndex .tables .tableSet),
    ("table.size", .optionalIndex .tables .tableSize),
    ("table.grow", .optionalIndex .tables .tableGrow),
    ("table.fill", .optionalIndex .tables .tableFill)]

/-- The keywords of operators on numbers, memories, tables and control. -/
def core : List (String × Form) := List.flatten [other, memory, numeric]

end MeteredWasm.Wat.Keyword
