import MeteredWasm.Sandbox.Executor

/-!
# Snapshots

The state of a paused executor that can be moved into another executor of the same artifact is its
linear memory as a whole: the captured stack is part of it. Gas, globals and tables stay behind.
-/

set_option autoImplicit false

namespace MeteredWasm

open Wasm Machine

/-- Why a snapshot is not installed. -/
inductive RestoreError
  | faulted
  | snapshot (error : SnapshotError)
  /-- Memory could not be written. -/
  | access (error : ExecutionError)
  deriving Repr, DecidableEq

def RestoreError.message : RestoreError → String
  | .faulted => ExecutionError.faulted.message
  | .snapshot error => error.message
  | .access error => error.message

namespace Executor

/-- A copy of linear memory, if the executor is paused and no error has stopped it. -/
def serialize (e : Executor) : Option ByteArray :=
  if e.isPaused && !e.faulted then some e.memory.bytes else none

/-- Puts a snapshot in the place of linear memory and pauses the executor. A snapshot of another
size than memory is refused, and changes nothing. -/
def deserialize (e : Executor) (snapshot : ByteArray) : Except RestoreError Executor :=
  if e.faulted then .error .faulted
  else if snapshot.size ≠ e.memorySize then
    .error (.snapshot (.memorySizeMismatch e.memorySize snapshot.size))
  else
    match e.sandbox.write? e.instance_ 0 snapshot with
    | .error error => .error (.access error)
    | .ok sandbox => .ok { e with sandbox := { sandbox with paused := true } }

end Executor

end MeteredWasm
