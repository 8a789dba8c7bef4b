import GuestBoundary.Action
import GuestBoundary.Bridge
import GuestBoundary.Buffers
import GuestBoundary.Class.Basic
import GuestBoundary.Class.Definition
import GuestBoundary.Class.Registry
import GuestBoundary.Config
import GuestBoundary.Descriptor.Basic
import GuestBoundary.Descriptor.Parser
import GuestBoundary.Elements
import GuestBoundary.Fault
import GuestBoundary.Guest.Allocation
import GuestBoundary.Guest.Bootstrap
import GuestBoundary.Guest.Code
import GuestBoundary.Guest.Evaluation
import GuestBoundary.Guest.Initialization
import GuestBoundary.Guest.Invocation
import GuestBoundary.Guest.Throwable
import GuestBoundary.Handle
import GuestBoundary.Handle.Globals
import GuestBoundary.Handle.Locals
import GuestBoundary.Heap.Basic
import GuestBoundary.Interface.Argument
import GuestBoundary.Interface.ArrayAccess
import GuestBoundary.Interface.BufferAccess
import GuestBoundary.Interface.Call
import GuestBoundary.Interface.ClassAccess
import GuestBoundary.Interface.FieldAccess
import GuestBoundary.Interface.Function
import GuestBoundary.Interface.Locking
import GuestBoundary.Interface.MemberObjects
import GuestBoundary.Interface.MethodAccess
import GuestBoundary.Interface.Operand
import GuestBoundary.Interface.Raising
import GuestBoundary.Interface.References
import GuestBoundary.Interface.Registration
import GuestBoundary.Interface.StringAccess
import GuestBoundary.Json
import GuestBoundary.Kind
import GuestBoundary.Members
import GuestBoundary.Monitor
import GuestBoundary.Native.Arguments
import GuestBoundary.Native.Attachment
import GuestBoundary.Native.Call
import GuestBoundary.Native.Signature
import GuestBoundary.Native.Symbol
import GuestBoundary.Pending
import GuestBoundary.Proofs.Effects.Guest
import GuestBoundary.Proofs.Effects.Keeps
import GuestBoundary.Proofs.Effects.Operand
import GuestBoundary.Proofs.Globals.Ledger
import GuestBoundary.Proofs.Globals.Table
import GuestBoundary.Proofs.Locals.Ledger
import GuestBoundary.Proofs.Locals.Table
import GuestBoundary.Script.Description
import GuestBoundary.Script.Document
import GuestBoundary.Script.GuestSteps
import GuestBoundary.Script.Host
import GuestBoundary.Script.NativeSteps
import GuestBoundary.Script.Reading.Code
import GuestBoundary.Script.Reading.Commands
import GuestBoundary.Script.Reading.Terms
import GuestBoundary.Script.Report
import GuestBoundary.Script.Run
import GuestBoundary.Script.Step
import GuestBoundary.Script.Writing.Reports
import GuestBoundary.Script.Writing.Values
import GuestBoundary.Text.Hex
import GuestBoundary.Text.Modified
import GuestBoundary.Text.Quoted
import GuestBoundary.Text.Units
import GuestBoundary.Text.Unprintable
import GuestBoundary.ThreadId
import GuestBoundary.Value.Basic
import GuestBoundary.Value.Conversion
import GuestBoundary.Version
import GuestBoundary.World
import GuestBoundary.Proofs.Effects.Interface
import GuestBoundary.Proofs.Effects.Call
import GuestBoundary.Proofs.Locals.Nesting
import GuestBoundary.Proofs.Native.Program
import GuestBoundary.Proofs.Native.Frames
import GuestBoundary.Proofs.Native.Calls
import GuestBoundary.Proofs.Native.Unbalanced
import GuestBoundary.Proofs.Native.Attachments
import GuestBoundary.Proofs.Native.Marshalling
import GuestBoundary.Proofs.Native.Bindings
import GuestBoundary.Proofs.Native.Registration
import GuestBoundary.Proofs.Classes.Registry
import GuestBoundary.Proofs.Classes.Dispatch
import GuestBoundary.Proofs.Classes.Table
import GuestBoundary.Proofs.Classes.Names
import GuestBoundary.Proofs.Text.Modified
import GuestBoundary.Proofs.Guest.Initialization
import GuestBoundary.Proofs.Interface.Receivers
import GuestBoundary.Proofs.Text.Grammar
import GuestBoundary.Proofs.Descriptor.Grammar
import GuestBoundary.Proofs.Descriptor.Cuts
import GuestBoundary.Proofs.Descriptor.Offsets
import GuestBoundary.Proofs.Classes.Layout
import GuestBoundary.Proofs.Classes.Fields
import GuestBoundary.Proofs.Classes.Growth
import GuestBoundary.Proofs.Guest.Lifecycle
import GuestBoundary.Proofs.Guest.Readiness
import GuestBoundary.Proofs.Guest.Agreement
import GuestBoundary.Proofs.Guest.Runs
import GuestBoundary.Proofs.Guest.Depth
import GuestBoundary.Proofs.Buffers.Table
import GuestBoundary.Proofs.Buffers.Ledger
import GuestBoundary.Proofs.Heap.Growth
import GuestBoundary.Proofs.Effects.Checks
import GuestBoundary.Proofs.Effects.Untouched
import GuestBoundary.Proofs.Interface.Failures
import GuestBoundary.Proofs.Arrays.Access
import GuestBoundary.Proofs.Arrays.Model
import GuestBoundary.Proofs.Exceptions.Discipline
import GuestBoundary.Proofs.Heap.Survival
import GuestBoundary.Proofs.Globals.Retirement
import GuestBoundary.Proofs.Globals.Owners
import GuestBoundary.Proofs.Globals.Runs
import GuestBoundary.Proofs.Globals.Weak
import GuestBoundary.Proofs.Text.Units
import GuestBoundary.Proofs.Native.Symbols
import GuestBoundary.Proofs.Classes.Arrays
import GuestBoundary.Proofs.Classes.Subtypes
import GuestBoundary.Proofs.Heap.Slots
import GuestBoundary.Proofs.Interface.FieldValues
import GuestBoundary.Proofs.Text.Lenient
import GuestBoundary.Proofs.Descriptor.Parentheses
import GuestBoundary.Proofs.Interface.Strings
import GuestBoundary.Proofs.Heap.Elements
import GuestBoundary.Proofs.Arrays.Stores
import GuestBoundary.Proofs.Locals.Room
import GuestBoundary.Proofs.Native.Room
import GuestBoundary.Proofs.Native.Activity
import GuestBoundary.Proofs.Native.NullFunctions
import GuestBoundary.Proofs.Arrays.WriteBack
import GuestBoundary.Proofs.Exceptions.Probes
import GuestBoundary.Proofs.Exceptions.Queries
import GuestBoundary.Proofs.Values.Conversion
import GuestBoundary.Proofs.Native.Slots
import GuestBoundary.Proofs.Effects.Attachment
import GuestBoundary.Proofs.Exceptions.Panics
import GuestBoundary.Proofs.Effects.Shortening
import GuestBoundary.Proofs.Guest.Initializers
import GuestBoundary.Proofs.Interface.Initializers
import GuestBoundary.Native.CallInterface
import GuestBoundary.Proofs.Native.Caches
import GuestBoundary.Proofs.Heap.Monitors
import GuestBoundary.Proofs.Native.Members
import GuestBoundary.Proofs.Classes.Lookup
import GuestBoundary.Proofs.Effects.Development
import GuestBoundary.Proofs.Interface.Numbers
import GuestBoundary.Proofs.Classes.Refusals
import GuestBoundary.Proofs.Classes.Definitions
import GuestBoundary.Proofs.Handles.Encoding
import GuestBoundary.Proofs.Config.RoundTrip
