import MapperSweep.Main
import MapperSweep.Proofs.Ranking
import MapperSweep.Proofs.Record.Store
import MapperSweep.Proofs.Sweep
import MapperSweep.Proofs.ToolOutput.Blocks
import MapperSweep.Report.Json
import MapperSweep.ScriptedTool
import MapperSweep.Shutdown
import MapperSweep.Proofs.Sweep.Failure
import MapperSweep.Proofs.Summariser
import MapperSweep.Proofs.Sweep.Driver
import MapperSweep.Proofs.Sweep.Interleaving
import MapperSweep.Proofs.Shutdown
import MapperSweep.Proofs.Settings
import MapperSweep.Proofs.Definition
import MapperSweep.Proofs.Supervisor
import MapperSweep.Proofs.Sweep.Provenance
import MapperSweep.Proofs.BestRun
import MapperSweep.Proofs.Grid
import MapperSweep.Proofs.ToolOutput.Faults
import MapperSweep.Proofs.ToolOutput.Feeding
import MapperSweep.Proofs.ToolOutput.Concatenation
import MapperSweep.Proofs.Record.Append
import MapperSweep.Proofs.Record.Precision
import MapperSweep.Proofs.Report.FixedWidth
import MapperSweep.Proofs.LaterResults
import MapperSweep.Proofs.Binary64.Reading
import MapperSweep.Proofs.Binary64.FewestDigits
import MapperSweep.Proofs.Report.Numbers
import MapperSweep.Proofs.Invocation
import MapperSweep.Proofs.Sweep.Deadline
import MapperSweep.Proofs.Validation
import MapperSweep.Proofs.Settings.UnknownKeys
import MapperSweep.Proofs.PathText
import MapperSweep.Proofs.ToolLookup
import MapperSweep.Proofs.ToolOutput.OpenResult
import MapperSweep.Proofs.ToolOutput.DamagedLine
