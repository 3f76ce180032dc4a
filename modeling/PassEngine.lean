import PassEngine.Bridge.Lower
import PassEngine.Bridge.Raise
import PassEngine.Cli.Arguments
import PassEngine.Cli.Command
import PassEngine.Cli.Files
import PassEngine.Cli.Host
import PassEngine.Cli.Result
import PassEngine.Cli.Server
import PassEngine.Diagnostic
import PassEngine.Dialect.CallGraph
import PassEngine.Dialect.Encoding
import PassEngine.Dialect.Module
import PassEngine.Dialect.Op
import PassEngine.Dialect.Printer
import PassEngine.Dialect.Ty
import PassEngine.Dialect.Verify
import PassEngine.Host.Pipeline
import PassEngine.Host.Session
import PassEngine.Inline.Config
import PassEngine.Inline.Pass
import PassEngine.Inline.Select
import PassEngine.Inline.Splice
import PassEngine.Ir.Edges
import PassEngine.Ir.Ident
import PassEngine.Ir.Operator
import PassEngine.Ir.Symbol
import PassEngine.Json.Basic
import PassEngine.Json.Number
import PassEngine.Json.Parser
import PassEngine.Json.Printer
import PassEngine.Json.Shape
import PassEngine.Json.Token
import PassEngine.Location
import PassEngine.Main
import PassEngine.NameTable
import PassEngine.Naming
import PassEngine.Native.Builder
import PassEngine.Native.Instruction
import PassEngine.Native.Module
import PassEngine.Native.Printer
import PassEngine.Native.Snapshot
import PassEngine.Native.Ty
import PassEngine.Pass.Basic
import PassEngine.Pass.Batch
import PassEngine.Pass.Registry
import PassEngine.Point
import PassEngine.Server.Attached
import PassEngine.Server.Config
import PassEngine.Server.Session
import PassEngine.Text.GraphemeExtend
import PassEngine.Text.Pad
import PassEngine.Text.Quoted
import PassEngine.Text.Unseen
import PassEngine.Wire.Channel
import PassEngine.Wire.Dialogue
import PassEngine.Wire.Error
import PassEngine.Wire.Frame
import PassEngine.Wire.Message
import PassEngine.Wire.Script
import PassEngine.Wire.Source
import PassEngine.Proofs.Bridge.RoundTrip
import PassEngine.Proofs.Dialect.Operands
import PassEngine.Proofs.Ir.Predecessors
import PassEngine.Proofs.Dialect.Relinked
import PassEngine.Proofs.Inline.Renaming
import PassEngine.Proofs.Inline.Splicing
import PassEngine.Proofs.Inline.Validity
import PassEngine.Proofs.Inline.Scoping
import PassEngine.Proofs.Inline.Run
import PassEngine.Proofs.Bridge.Raisable
import PassEngine.Proofs.Inline.Raising
import PassEngine.Proofs.Semantics.Machine
import PassEngine.Proofs.Semantics.Strict
import PassEngine.Proofs.Inline.Layout
import PassEngine.Proofs.Inline.Outside
import PassEngine.Proofs.Inline.Inside
import PassEngine.Proofs.Inline.Simulation
import PassEngine.Proofs.Inline.Meaning
import PassEngine.Proofs.Dialect.Verdict
import PassEngine.Proofs.Pass.Atomicity
import PassEngine.Proofs.Wire.Transcript
import PassEngine.Proofs.Host.Merging
import PassEngine.Proofs.Json.Scanning
import PassEngine.Proofs.Json.Reading
import PassEngine.Proofs.Json.Lossless
import PassEngine.Proofs.Dialect.Encoding
import PassEngine.Proofs.Wire.Codec
import PassEngine.Proofs.Remote.System
import PassEngine.Proofs.Host.Local
import PassEngine.Proofs.Remote.Refinement
import PassEngine.Proofs.Wire.Decoding
import PassEngine.Proofs.Bridge.Resending
import PassEngine.Proofs.Dialect.CallSites
import PassEngine.Proofs.Inline.Growth
import PassEngine.Proofs.Inline.Limit
import PassEngine.Proofs.Inline.Termination
import PassEngine.Proofs.Dialect.Reachability
import PassEngine.Proofs.Inline.Recursion
import PassEngine.Proofs.Server.Answering
import PassEngine.Proofs.Host.Protocol
import PassEngine.Proofs.Bridge.Nesting
import PassEngine.Proofs.Native.Encoding
import PassEngine.Proofs.Native.Loading
import PassEngine.Proofs.Wire.Shipping
import PassEngine.Proofs.Wire.Framing
import PassEngine.Proofs.Wire.Transports
import PassEngine.Proofs.Inline.Stranding
import PassEngine.Proofs.Bridge.NormalForm
import PassEngine.Proofs.Bridge.Refusal
import PassEngine.Proofs.Inline.Positions
import PassEngine.Proofs.Inline.Surroundings
import PassEngine.Proofs.Inline.FixedPoint
import PassEngine.Proofs.Dialect.Linking
import PassEngine.Proofs.Bridge.Linking
import PassEngine.Proofs.Host.Reporting
import PassEngine.Proofs.Inline.RoundSize
import PassEngine.Proofs.Json.Layout
import PassEngine.Proofs.Json.Thorough
import PassEngine.Proofs.Native.Saving
import PassEngine.Proofs.Native.Building
import PassEngine.Proofs.Pass.Ordering
import PassEngine.Proofs.Pass.Consultation
import PassEngine.Proofs.Inline.FreshIds
import PassEngine.Proofs.Inline.Numbering
import PassEngine.Proofs.Dialect.CallCounts
import PassEngine.Proofs.Dialect.Rewriting
