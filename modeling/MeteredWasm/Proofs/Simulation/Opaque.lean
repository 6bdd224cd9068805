import MeteredWasm.Machine.Instance
import MeteredWasm.Proofs.Agreement.Value
import MeteredWasm.Sandbox.Imports

/-!
# Host functions that treat functions as names

What the host gets to see of a function of an instance is a handle, not its index. A host function
is opaque if its answer depends on handles as handles only: renaming the functions injectively, in
the calls made so far and in the arguments, renames them in the answer and changes nothing else.
-/

set_option autoImplicit false

namespace MeteredWasm

open Wasm Machine

/-- Renames the functions that a call passes on. -/
def Machine.HostCall.mapFunc (g : UInt32 → UInt32) (c : HostCall) : HostCall :=
  { c with args := c.args.map (Value.mapFunc g) }

/-- The host function treats functions as names. -/
def Machine.HostBehaviour.Opaque (behaviour : HostBehaviour) : Prop :=
  ∀ g : UInt32 → UInt32, Function.Injective g → ∀ calls args,
    behaviour (calls.map (HostCall.mapFunc g)) (args.map (Value.mapFunc g)) =
      List.map (Value.mapFunc g) <$> behaviour calls args

/-- All host functions treat functions as names. -/
def Imports.Opaque (imports : Imports) : Prop :=
  ∀ f ∈ imports.functions, f.behaviour.Opaque

end MeteredWasm
