import MeteredWasm.Artifact.Codec
import MeteredWasm.Error
import MeteredWasm.Float.Decimal
import MeteredWasm.Instrument
import MeteredWasm.Machine.Run
import MeteredWasm.Main
import MeteredWasm.Metering.Pass
import MeteredWasm.Options.Basic
import MeteredWasm.Proofs.Agreement.Compute
import MeteredWasm.Proofs.Agreement.Fill
import MeteredWasm.Proofs.Agreement.Memory
import MeteredWasm.Proofs.Agreement.Storage
import MeteredWasm.Proofs.Agreement.Value
import MeteredWasm.Proofs.Artifact.Canonical
import MeteredWasm.Proofs.Basic
import MeteredWasm.Proofs.Codec.Modules
import MeteredWasm.Proofs.CommandLine.Cached
import MeteredWasm.Proofs.CommandLine.Loop
import MeteredWasm.Proofs.CommandLine.Script
import MeteredWasm.Proofs.Machine.Fits
import MeteredWasm.Proofs.Machine.Glide
import MeteredWasm.Proofs.Machine.Growth
import MeteredWasm.Proofs.Machine.Hook
import MeteredWasm.Proofs.Machine.Path
import MeteredWasm.Proofs.Machine.Reach
import MeteredWasm.Proofs.Machine.Skip
import MeteredWasm.Proofs.Machine.Stretch
import MeteredWasm.Proofs.Machine.Touch
import MeteredWasm.Proofs.Machine.Walk
import MeteredWasm.Proofs.Metering.Accepts
import MeteredWasm.Proofs.Metering.Charges
import MeteredWasm.Proofs.Metering.Classes
import MeteredWasm.Proofs.Metering.MemoryName
import MeteredWasm.Proofs.Metering.OutOfReach
import MeteredWasm.Proofs.Metering.Position
import MeteredWasm.Proofs.Metering.ReservedRange
import MeteredWasm.Proofs.Metering.Rewriting
import MeteredWasm.Proofs.Metering.Shift
import MeteredWasm.Proofs.Metering.Summary
import MeteredWasm.Proofs.Metering.Valid
import MeteredWasm.Proofs.Metering.WithinReach
import MeteredWasm.Proofs.Module.Dialect
import MeteredWasm.Proofs.Module.Metered
import MeteredWasm.Proofs.Module.Row
import MeteredWasm.Proofs.Module.Summary
import MeteredWasm.Proofs.Options.Members
import MeteredWasm.Proofs.Options.Spelling
import MeteredWasm.Proofs.Session.Blank
import MeteredWasm.Proofs.Session.Bounds
import MeteredWasm.Proofs.Session.Cost
import MeteredWasm.Proofs.Session.Drivable
import MeteredWasm.Proofs.Session.Fresh
import MeteredWasm.Proofs.Session.IdleCaptured
import MeteredWasm.Proofs.Session.IdleRuns
import MeteredWasm.Proofs.Session.IdleSessions
import MeteredWasm.Proofs.Session.Imports
import MeteredWasm.Proofs.Session.Install
import MeteredWasm.Proofs.Session.Lifecycle
import MeteredWasm.Proofs.Session.Made
import MeteredWasm.Proofs.Session.Moments
import MeteredWasm.Proofs.Session.Once
import MeteredWasm.Proofs.Session.Original
import MeteredWasm.Proofs.Session.Protocol
import MeteredWasm.Proofs.Session.Resolution
import MeteredWasm.Proofs.Session.Schedule
import MeteredWasm.Proofs.Session.Snapshot
import MeteredWasm.Proofs.Session.Split
import MeteredWasm.Proofs.Session.Standing
import MeteredWasm.Proofs.Session.Tick
import MeteredWasm.Proofs.Session.Timing
import MeteredWasm.Proofs.Session.Turn
import MeteredWasm.Proofs.Simulation.Account
import MeteredWasm.Proofs.Simulation.History
import MeteredWasm.Proofs.Simulation.Linked
import MeteredWasm.Proofs.Simulation.Lockstep
import MeteredWasm.Proofs.Simulation.Meaning
import MeteredWasm.Proofs.Simulation.Metered
import MeteredWasm.Proofs.Simulation.Opaque
import MeteredWasm.Proofs.Simulation.Range
import MeteredWasm.Proofs.Simulation.Scope
import MeteredWasm.Proofs.Simulation.Shortage
import MeteredWasm.Proofs.Simulation.Stage
import MeteredWasm.Proofs.Simulation.Start
import MeteredWasm.Proofs.Simulation.Translation
import MeteredWasm.Proofs.Suspension.Capture
import MeteredWasm.Proofs.Suspension.Instrumented
import MeteredWasm.Proofs.Suspension.Kept
import MeteredWasm.Proofs.Suspension.Tracking
import MeteredWasm.Proofs.Validation.Declared
import MeteredWasm.Proofs.Validation.Named
import MeteredWasm.Sandbox.Executor
import MeteredWasm.Sandbox.Snapshot
import MeteredWasm.Suspension.Module
import MeteredWasm.Wasm.Validation.Module
