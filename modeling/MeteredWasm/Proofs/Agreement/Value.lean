import MeteredWasm.Wasm.Arithmetic.Lanes

/-!
# Renaming function references in values

A reference is the only value that names a function. Operators on numbers and vectors do not look
at references: they do the same to values with the functions renamed (`Numeric.eval_mapFunc`,
`VectorOp.eval_mapFunc`), whatever the renaming.
-/

set_option autoImplicit false

namespace MeteredWasm.Wasm

/-- Renames the function that a value refers to. -/
def Value.mapFunc (g : UInt32 → UInt32) : Value → Value
  | .ref target => .ref (target.map g)
  | v => v

section
variable (g : UInt32 → UInt32)

namespace Value

@[simp] theorem mapFunc_i32 (v : BitVec 32) : (Value.i32 v).mapFunc g = .i32 v := rfl

@[simp] theorem mapFunc_i64 (v : BitVec 64) : (Value.i64 v).mapFunc g = .i64 v := rfl

@[simp] theorem mapFunc_f32 (v : BitVec 32) : (Value.f32 v).mapFunc g = .f32 v := rfl

@[simp] theorem mapFunc_f64 (v : BitVec 64) : (Value.f64 v).mapFunc g = .f64 v := rfl

@[simp] theorem mapFunc_v128 (v : BitVec 128) : (Value.v128 v).mapFunc g = .v128 v := rfl

@[simp] theorem mapFunc_ref (target : Option UInt32) :
    (Value.ref target).mapFunc g = .ref (target.map g) := rfl

@[simp] theorem mapFunc_ofInt (w : Width) (v : BitVec w.bits) :
    (ofInt w v).mapFunc g = ofInt w v := by cases w <;> rfl

@[simp] theorem mapFunc_ofBool (b : Bool) : (ofBool b).mapFunc g = ofBool b := rfl

@[simp] theorem mapFunc_ofWord (n : UInt32) : (ofWord n).mapFunc g = ofWord n := rfl

@[simp] theorem mapFunc_ofNat (n : Nat) : (ofNat n).mapFunc g = ofNat n := rfl

@[simp] theorem mapFunc_ofIndex (is64 : Bool) (n : Nat) :
    (ofIndex is64 n).mapFunc g = ofIndex is64 n := by cases is64 <;> rfl

@[simp] theorem mapFunc_noIndex (is64 : Bool) : (noIndex is64).mapFunc g = noIndex is64 := by
  cases is64 <;> rfl

@[simp] theorem mapFunc_ofFloat (w : Width) (n : Nat) : (ofFloat w n).mapFunc g = ofFloat w n := by
  cases w <;> rfl

@[simp] theorem mapFunc_zero (type : ValType) : (zero type).mapFunc g = zero type := by
  cases type <;> rfl

@[simp] theorem int_mapFunc (w : Width) (v : Value) : (v.mapFunc g).int w = v.int w := by
  cases v <;> cases w <;> rfl

@[simp] theorem index_mapFunc (v : Value) : (v.mapFunc g).index = v.index := by
  cases v <;> rfl

@[simp] theorem float_mapFunc (w : Width) (v : Value) : (v.mapFunc g).float w = v.float w := by
  cases v <;> cases w <;> rfl

@[simp] theorem vector_mapFunc (v : Value) : (v.mapFunc g).vector = v.vector := by
  cases v <;> rfl

@[simp] theorem reference_mapFunc (v : Value) :
    (v.mapFunc g).reference = Option.map g <$> v.reference := by
  cases v <;> rfl

@[simp] theorem hasType_mapFunc (v : Value) (type : ValType) :
    (v.mapFunc g).hasType type = v.hasType type := by
  cases v with
  | ref target => cases target <;> cases type <;> rfl
  | _ => rfl

theorem mapFunc_id (v : Value) : v.mapFunc id = v := by
  cases v <;> simp

end Value

/-! ## Operators on numbers and vectors -/

@[simp] theorem except_map_error {ε α β : Type} (f : α → β) (e : ε) :
    f <$> (Except.error e : Except ε α) = .error e := rfl

theorem Conversion.eval_mapFunc (op : Conversion) (v : Value) :
    op.eval (v.mapFunc g) = Value.mapFunc g <$> op.eval v := by
  cases op <;> simp [Conversion.eval]

theorem Numeric.eval_mapFunc (op : Numeric) (vs : List Value) :
    op.eval (vs.map (Value.mapFunc g)) = List.map (Value.mapFunc g) <$> op.eval vs := by
  rcases vs with _ | ⟨a, _ | ⟨b, vs⟩⟩ <;> cases op <;>
    simp [Numeric.eval, Conversion.eval_mapFunc]

theorem LaneShape.splat_mapFunc (shape : LaneShape) (v : Value) :
    shape.splat (v.mapFunc g) = shape.splat v := by
  cases shape with
  | int w => cases w <;> simp [LaneShape.splat]
  | float w => simp [LaneShape.splat]

theorem replaceLaneBy_mapFunc (shape : LaneShape) (lane : Nat) (a : Value) (v : BitVec 128) :
    replaceLaneBy shape lane (a.mapFunc g) v = replaceLaneBy shape lane a v := by
  cases shape with
  | int w => cases w <;> simp [replaceLaneBy]
  | float w => simp [replaceLaneBy]

theorem VectorOp.eval_mapFunc (op : VectorOp) (vs : List Value) :
    op.eval (vs.map (Value.mapFunc g)) = List.map (Value.mapFunc g) <$> op.eval vs := by
  rcases vs with _ | ⟨a, _ | ⟨b, _ | ⟨c, vs⟩⟩⟩ <;> cases op <;>
    simp [VectorOp.eval, LaneShape.splat_mapFunc] <;>
    -- What is left is told by its signature.
    split <;> simp

theorem LaneExtract.eval_mapFunc (op : LaneExtract) (lane : Nat) (v : BitVec 128) :
    (op.eval lane v).mapFunc g = op.eval lane v := by
  cases op <;> rfl

end

end MeteredWasm.Wasm
