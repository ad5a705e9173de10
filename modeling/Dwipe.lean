import Dwipe.Library.Traced
import Dwipe.Library.Radix
import Dwipe.Machine.Types
import Dwipe.Machine.Bios
import Dwipe.Disk.Geometry
import Dwipe.Disk.Requests
import Dwipe.Disk.Fat
import Dwipe.Wipe.Progress
import Dwipe.Wipe.WipeDisk
import Dwipe.Wipe.Main
import Dwipe.Disk.Transfers
import Dwipe.Wipe.Passes
import Dwipe.Wipe.Plan
import Dwipe.Wipe.Permitted
import Dwipe.Library.Tiling
import Dwipe.Disk.Label
import Dwipe.Machine.Scripts
import Dwipe.Wipe.Layout
import Dwipe.Results.Addressing
import Dwipe.Results.Coverage
import Dwipe.Results.ChsCoverage
import Dwipe.Results.Payloads
import Dwipe.Wipe.Paths
import Dwipe.Results.Reporting
import Dwipe.Wipe.Enumeration
import Dwipe.Results.Listing
import Dwipe.Results.Safety
import Dwipe.Disk.Served
import Dwipe.Results.Protection
import Dwipe.Wipe.Walk
import Dwipe.Disk.Sizes
import Dwipe.Results.Sizes
import Dwipe.Results.Bounds
import Dwipe.Results.Verification
import Dwipe.Results.Outcomes
import Dwipe.Results.Tracks
import Dwipe.Disk.Answered
import Dwipe.Results.Labels
import Dwipe.Library.Loops
import Dwipe.Runtime.Clock
import Dwipe.Library.Stack
import Dwipe.Runtime.Exceptions
import Dwipe.Runtime.Heap
import Dwipe.CommandLine.Strtok
import Dwipe.CommandLine.Parse
import Dwipe.CommandLine.Options
import Dwipe.Results.CommandLine
import Dwipe.Runtime.CpuType
import Dwipe.Results.ClockRate
import Dwipe.Library.Ledger
import Dwipe.Results.Divisions
import Dwipe.Results.ProgressLine
import Dwipe.Library.Calendar
import Dwipe.Results.Calendar
import Dwipe.Results.Conversions
import Dwipe.Results.Media
import Dwipe.Library.Bytes
import Dwipe.Runtime.RealMode
import Dwipe.Runtime.RealStubs
import Dwipe.Runtime.Int13
import Dwipe.Runtime.Relocation
import Dwipe.Results.RealMode
import Dwipe.Library.Polling
import Dwipe.Runtime.Serial
import Dwipe.Runtime.Log
import Dwipe.Results.Log
import Dwipe.Runtime.Startup
import Dwipe.Results.Startup
import Dwipe.Results.Program
import Dwipe.Library.Canvas
import Dwipe.Runtime.Display
import Dwipe.Runtime.Inter
import Dwipe.Results.Screen
import Dwipe.Runtime.Bootsect
import Dwipe.Results.Boot
import Dwipe.Runtime.Format
import Dwipe.Wipe.StatusScreen
import Dwipe.Wipe.StatusRows
import Dwipe.Results.StatusScreen
import Dwipe.Runtime.Processor
