import Qdmi.Lib.Outcome
import Qdmi.Lib.Memory
import Qdmi.Lib.Heap
import Qdmi.Lib.Naming
import Qdmi.Lib.Runs
import Qdmi.Lib.Records
import Qdmi.Lib.Fields
import Qdmi.Lib.Custody
import Qdmi.Lib.Substitute
import Qdmi.Lib.Qasm
import Qdmi.Lib.Words
import Qdmi.Lib.Apart
import Qdmi.Lib.Placeholders
import Qdmi.Lib.Patterns
import Qdmi.Lib.Asking
import Qdmi.Lib.OrderedMap
import Qdmi.Lib.Paths
import Qdmi.Core.Constants
import Qdmi.Core.Call
import Qdmi.Core.Device.State
import Qdmi.Core.Device.Session
import Qdmi.Core.Device.Property
import Qdmi.Core.Device.Job
import Qdmi.Core.Device.Results
import Qdmi.Core.Device.Step
import Qdmi.Core.Fomac
import Qdmi.Core.Tool
import Qdmi.Core.Prefixing
import Qdmi.Core.Template
import Qdmi.Core.Driver.State
import Qdmi.Core.Driver.Library
import Qdmi.Core.Driver.Session
import Qdmi.Core.Driver.Job
import Qdmi.Core.Driver.Step
import Qdmi.Core.Driver.Files
import Qdmi.Core.Programs
import Qdmi.Core.Stack
import Qdmi.Theory.SizeProtocol
import Qdmi.Theory.Device.Inversion
import Qdmi.Theory.Device.Lifecycle
import Qdmi.Theory.Device.Reachable
import Qdmi.Theory.Device.Configure
import Qdmi.Theory.Device.Atomicity
import Qdmi.Theory.Device.Submission
import Qdmi.Theory.Device.Shots
import Qdmi.Theory.Device.Encoders
import Qdmi.Theory.Device.Sparse
import Qdmi.Theory.Device.Amplitudes
import Qdmi.Theory.Device.Counts
import Qdmi.Theory.Device.Sizes
import Qdmi.Theory.Device.Gate
import Qdmi.Theory.Device.Operations
import Qdmi.Theory.Device.Status
import Qdmi.Theory.Device.Frame
import Qdmi.Theory.Device.Identity
import Qdmi.Theory.Device.Interleaving
import Qdmi.Theory.Device.Containment
import Qdmi.Theory.Device.Live
import Qdmi.Theory.Fomac
import Qdmi.Theory.Tool.Rewrite
import Qdmi.Theory.Tool.Registers
import Qdmi.Theory.Tool.Rule
import Qdmi.Theory.Tool.Frame
import Qdmi.Theory.Tool.Ending
import Qdmi.Theory.Programs
import Qdmi.Theory.Levels
import Qdmi.Theory.Prefixing
import Qdmi.Theory.Template.Places
import Qdmi.Theory.Template.Quotes
import Qdmi.Theory.Template.Passes
import Qdmi.Theory.Template.Package
import Qdmi.Theory.Driver.Move
import Qdmi.Theory.Driver.Session
import Qdmi.Theory.Driver.Ownership
import Qdmi.Theory.Driver.Opening
import Qdmi.Theory.Driver.Invariant
import Qdmi.Theory.Driver.Discipline
import Qdmi.Theory.Driver.Change
import Qdmi.Theory.Driver.Turns
import Qdmi.Theory.Driver.Passing
import Qdmi.Theory.Driver.Access
import Qdmi.Theory.Driver.Alike
import Qdmi.Theory.Driver.Attempt
import Qdmi.Theory.Driver.Retry
import Qdmi.Theory.Driver.Reading
import Qdmi.Theory.Driver.Catalogue
import Qdmi.Theory.Driver.Spared
import Qdmi.Theory.Driver.Configuration
import Qdmi.Theory.Driver.Confinement
import Qdmi.Theory.Stack.World
import Qdmi.Theory.Stack.Kept
import Qdmi.Theory.Stack.Opening
import Qdmi.Theory.Stack.Run
import Qdmi.Theory.Stack.Correspondence
import Qdmi.Theory.Stack.Safety
import Qdmi.Theory.Stack.Jobs
import Qdmi.Theory.Stack.Transparency
import Qdmi.Theory.Stack.Machine
import Qdmi.Theory.Stack.Service
import Qdmi.Theory.Stack.Collection
import Qdmi.Theory.Stack.Reads
import Qdmi.Theory.Stack.Acceptance
import Qdmi.Theory.Stack.Tables
import Qdmi.Theory.Stack.Handles
import Qdmi.Theory.Stack.Clients
import Qdmi.Theory.Stack.Library
import Qdmi.Theory.Stack.Tool
import Qdmi.Theory.Versions
import Qdmi.Theory.Sizes
import Qdmi.Theory.Containment
