import MeteredWasm.Sandbox.ControlBlock
import MeteredWasm.Sandbox.Pages

/-!
# Artifacts

An instrumented module with all that is needed to run it, so that instrumenting is done once and
the result kept.
-/

set_option autoImplicit false

namespace MeteredWasm

structure Artifact where
  /-- The instrumented binary. -/
  wasm : Bytes
  /-- Name of the function that each tick calls. -/
  entry : String
  memory : MemoryInfo
  /-- Export name of a memory that the module defines. -/
  memoryExport : Option String
  controlBlock : ControlBlock
  deriving Repr, DecidableEq

end MeteredWasm
