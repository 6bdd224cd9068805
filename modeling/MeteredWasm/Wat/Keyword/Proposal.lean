import MeteredWasm.Wat.Keyword.Vector

/-!
# Keywords of proposals

Operators of proposals by the page of their opcode. Those whose immediates have a form of their own
(casts, and what opens a block) are read elsewhere.
-/

set_option autoImplicit false

namespace MeteredWasm.Wat.Keyword

open Wasm

/-- Forms of proposal operators behind a page byte. -/
def paged (page : UInt8) (entries : List (String × Nat × List Part)) : List (String × Form) :=
  entries.map fun (name, code, parts) => (name, .proposal ⟨some page, code⟩ parts)

/-- Names with codes in a row, all followed by the same. -/
def row (first : Nat) (parts : List Part) (names : List String) : List (String × Nat × List Part) :=
  names.zipIdx.map fun (name, i) => (name, first + i, parts)

def singleByte : List (String × Form) :=
  [("throw", 0x08, [.item .tags]), ("rethrow", 0x09, [.label]), ("throw_ref", 0x0A, []),
    ("call_ref", 0x14, [.item .types]), ("return_call_ref", 0x15, [.item .types]),
    ("ref.eq", 0xD3, []), ("ref.as_non_null", 0xD4, []), ("br_on_null", 0xD5, [.label]),
    ("br_on_non_null", 0xD6, [.label]), ("catch", 0x07, [.item .tags]), ("catch_all", 0x19, []),
    ("cont.new", 0xE0, [.item .types]), ("cont.bind", 0xE1, [.item .types, .item .types]),
    ("suspend", 0xE2, [.item .tags]), ("resume", 0xE3, [.item .types, .handlers]),
    ("resume_throw", 0xE4, [.item .types, .item .tags, .handlers]),
    ("switch", 0xE5, [.item .types, .item .tags])].map
    fun (name, code, parts) => (name, .proposal ⟨none, code⟩ parts)

def aggregates : List (String × Form) :=
  paged 0xFB <| List.flatten
    [row 0x00 [.item .types] ["struct.new", "struct.new_default"],
      row 0x02 [.item .types, .number] ["struct.get", "struct.get_s", "struct.get_u", "struct.set"],
      row 0x06 [.item .types] ["array.new", "array.new_default"],
      [("array.new_fixed", 0x08, [.item .types, .number]),
        ("array.new_data", 0x09, [.item .types, .item .datas]),
        ("array.new_elem", 0x0A, [.item .types, .item .elements])],
      row 0x0B [.item .types] ["array.get", "array.get_s", "array.get_u", "array.set"],
      [("array.len", 0x0F, []), ("array.fill", 0x10, [.item .types]),
        ("array.copy", 0x11, [.item .types, .item .types]),
        ("array.init_data", 0x12, [.item .types, .item .datas]),
        ("array.init_elem", 0x13, [.item .types, .item .elements])],
      row 0x1A [] ["any.convert_extern", "extern.convert_any", "ref.i31", "i31.get_s", "i31.get_u"],
      row 0x20 [.item .types] ["struct.new_desc", "struct.new_default_desc", "ref.get_desc"]]

def wide : List (String × Form) :=
  paged 0xFC <|
    ("memory.discard", 0x12, [.memory]) ::
      row 0x13 [] ["i64.add128", "i64.sub128", "i64.mul_wide_s", "i64.mul_wide_u"]

def relaxed : List (String × Form) :=
  paged 0xFD <| row 0x100 []
    ["i8x16.relaxed_swizzle", "i32x4.relaxed_trunc_f32x4_s", "i32x4.relaxed_trunc_f32x4_u",
      "i32x4.relaxed_trunc_f64x2_s_zero", "i32x4.relaxed_trunc_f64x2_u_zero", "f32x4.relaxed_madd",
      "f32x4.relaxed_nmadd", "f64x2.relaxed_madd", "f64x2.relaxed_nmadd",
      "i8x16.relaxed_laneselect", "i16x8.relaxed_laneselect", "i32x4.relaxed_laneselect",
      "i64x2.relaxed_laneselect", "f32x4.relaxed_min", "f32x4.relaxed_max", "f64x2.relaxed_min",
      "f64x2.relaxed_max", "i16x8.relaxed_q15mulr_s", "i16x8.relaxed_dot_i8x16_i7x16_s",
      "i32x4.relaxed_dot_i8x16_i7x16_add_s"]

/-- Changes to a shared place. -/
def changes : List String := ["add", "sub", "and", "or", "xor", "xchg", "cmpxchg"]

def shared : List (String × Form) :=
  paged 0xFE <| List.flatten
    [row 0x4F [.ordering, .item .globals] (typed "global.atomic" ["get", "set"]),
      row 0x51 [.ordering, .item .globals] (typed "global.atomic.rmw" changes),
      row 0x58 [.ordering, .item .tables] (typed "table.atomic" ["get", "set"]),
      row 0x5A [.ordering, .item .tables] (typed "table.atomic.rmw" ["xchg", "cmpxchg"]),
      row 0x5C [.ordering, .item .types, .number]
        (typed "struct.atomic" ["get", "get_s", "get_u", "set"]),
      row 0x60 [.ordering, .item .types, .number] (typed "struct.atomic.rmw" changes),
      row 0x67 [.ordering, .item .types] (typed "array.atomic" ["get", "get_s", "get_u", "set"]),
      row 0x6B [.ordering, .item .types] (typed "array.atomic.rmw" changes),
      [("ref.i31_shared", 0x72, [])]]

/-- The keywords of operators that no module may use. -/
def proposal : List (String × Form) := List.flatten [singleByte, aggregates, wide, relaxed, shared]

end MeteredWasm.Wat.Keyword
