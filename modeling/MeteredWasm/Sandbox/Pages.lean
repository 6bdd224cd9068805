import MeteredWasm.Wasm.Type.Basic

/-!
# Memory sizes in pages

Linear memory is measured in pages of 64 KiB, of which a 32-bit memory has at most 65536.
-/

set_option autoImplicit false

namespace MeteredWasm

/-- Bytes in a page. -/
def pageSize : Nat := 65536

/-- The most pages that a 32-bit memory can have. -/
def maxPages : Nat := 65536

/-- The most pages a memory may have under a ceiling: no more than it declares, than the ceiling
and than a 32-bit memory can have. -/
def Wasm.Limits.capped (limits : Wasm.Limits) (ceiling : UInt64) : UInt64 :=
  let ceiling := Min.min ceiling maxPages.toUInt64
  limits.max.elim ceiling (Min.min · ceiling)

/-- The size a memory starts with, in bytes. -/
def Wasm.Limits.minBytes (limits : Wasm.Limits) : Nat := limits.min.toNat * pageSize

/-- The linear memory that a module declares. -/
structure MemoryInfo where
  limits : Wasm.Limits
  isShared : Bool
  /-- Whether the memory is imported rather than defined by the module. -/
  isImported : Bool
  deriving Repr, DecidableEq, Inhabited

end MeteredWasm
