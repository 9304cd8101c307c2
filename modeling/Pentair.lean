import Pentair.Library.Recognizer
import Pentair.Library.Ring
import Pentair.Library.Reads
import Pentair.Library.ByteSum
import Pentair.Library.Marker
import Pentair.Library.MixedRadix
import Pentair.Clock
import Pentair.Commands
import Pentair.Packet
import Pentair.Receiver
import Pentair.Parsing
import Pentair.PushSteps
import Pentair.Calls
import Pentair.Refinement
import Pentair.Completion
import Pentair.Positions
import Pentair.Delivery
import Pentair.Grammar
import Pentair.Corruption
import Pentair.Run
import Pentair.Telemetry
import Pentair.Window
import Pentair.Hold
import Pentair.HexText
import Pentair.Encoding
import Pentair.Joining
import Pentair.Timekeeping
import Pentair.Counting
import Pentair.Library.CString
import Pentair.Secrets
import Pentair.Synchronisation
import Pentair.Monitor
import Pentair.Forgetting
import Pentair.Library.Register
import Pentair.Reporting
import Pentair.Sending
import Pentair.TrueTime
import Pentair.Progress
import Pentair.Library.Fields
import Pentair.Exports
import Pentair.Library.Grep
import Pentair.Printing
import Pentair.LogLines
import Pentair.Dump
import Pentair.DumpReading
import Pentair.Frames
import Pentair.Bus
import Pentair.Overlong
import Pentair.TestFixture
