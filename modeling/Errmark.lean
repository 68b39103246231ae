import Errmark.Foundation.Runs
import Errmark.Foundation.Tiling
import Errmark.Foundation.Brackets
import Errmark.Foundation.Streams
import Errmark.Machine.WaitStatus
import Errmark.Program.PmemReading
import Errmark.Program.Iteration
import Errmark.Program.Effects
import Errmark.Program.Leaving
import Errmark.Program.Emission
import Errmark.Program.Sinks
import Errmark.Tracee.Stops
import Errmark.Tracee.Tracking
import Errmark.Properties.Bracketing
import Errmark.Properties.Phases
import Errmark.Properties.Endings
import Errmark.Properties.Signals
import Errmark.Properties.Registers
import Errmark.Properties.Copy
import Errmark.Properties.StreamOrder
import Errmark.Properties.Routing
import Errmark.Properties.WriteThrough
import Errmark.Tracee.Waiting
import Errmark.Properties.LoopEnd
import Errmark.Properties.StaleRegisters
import Errmark.Properties.ShortReads
import Errmark.Properties.MappedMemory
import Errmark.Properties.Attribution
import Errmark.Machine.CString
import Errmark.Program.ShowStr
import Errmark.Properties.SafeDisplay
import Errmark.Program.ParseMarkSpecs
import Errmark.Program.MarkFields
import Errmark.Properties.MarkSpecs
import Errmark.Foundation.Omissions
import Errmark.Properties.UntouchedCalls
import Errmark.Foundation.Components
import Errmark.Program.Sname
import Errmark.Foundation.Loops
import Errmark.Machine.Getopt
import Errmark.Properties.LastName
import Errmark.Foundation.Escaping
import Errmark.Properties.Recovery
import Errmark.Machine.CommandLine
import Errmark.Program.Colors
import Errmark.Program.OptionLoop
import Errmark.Properties.CommandOptions
import Errmark.Properties.Startup
import Errmark.Properties.CommandContract
import Errmark.Properties.Diagnostics
import Errmark.Foundation.Marking
import Errmark.Foundation.Projections
import Errmark.Program.Halting
import Errmark.Properties.Terminal
import Errmark.Properties.Unmarking
import Errmark.Properties.Chunking
import Errmark.Properties.AbnormalEnds
import Errmark.Properties.Dialogue
import Errmark.Properties.Verbosity
import Errmark.Properties.UnsetLocals
import Errmark.Foundation.Separators
import Errmark.Foundation.Numerals
import Errmark.Foundation.Settings
import Errmark.Program.Explain
import Errmark.Properties.Coloring
import Errmark.Properties.CommandLines
import Errmark.Properties.Explanations
import Errmark.Properties.ProgramArguments
import Errmark.Properties.ToldStatuses
import Errmark.Properties.HandedOver
import Errmark.Properties.Listing
import Errmark.Properties.Preservation
