import SerialBindings.Programs
import SerialBindings.Threads
import SerialBindings.Quiet
import SerialBindings.Conservation
import SerialBindings.Process
import SerialBindings.Pursuit
import SerialBindings.Aborts
import SerialBindings.AbortCount
import SerialBindings.InFlight
import SerialBindings.Slots
import SerialBindings.AbortTargets
import SerialBindings.LineStore
import SerialBindings.Tenancy
import SerialBindings.Sessions
import SerialBindings.CleanStart
import SerialBindings.Alternation
import SerialBindings.Dispatcher
import SerialBindings.SetEventCallback
import SerialBindings.Replay
import SerialBindings.Watching
import SerialBindings.Snapshot
import SerialBindings.EventModule
import SerialBindings.Tending
import SerialBindings.LineRaces
import SerialBindings.LoopRules
import SerialBindings.Memory
import SerialBindings.TransferBuffer
import SerialBindings.FirstMatch
import SerialBindings.Bookkeeping
import SerialBindings.ByteTotals
import SerialBindings.DeviceStrings
import SerialBindings.ErrorReports
import SerialBindings.ErrorContract
import SerialBindings.Deeds
import SerialBindings.Nesting
import SerialBindings.Tenure
import SerialBindings.Succession
import SerialBindings.Retirement
import SerialBindings.FailedCalls
import SerialBindings.UsbIds
import SerialBindings.InterfaceLists
import SerialBindings.Monitors
import SerialBindings.Wakeups
import SerialBindings.Waits
import SerialBindings.Opening
import SerialBindings.TextEncodings
import SerialBindings.PortNaming
import SerialBindings.PortNames
import SerialBindings.Custody
import SerialBindings.Ownership
import SerialBindings.Progress
import SerialBindings.OpenHandles
import SerialBindings.GlobalCallbacks
import SerialBindings.DeviceHandles
import SerialBindings.FramedReads
import SerialBindings.SentBytes
import SerialBindings.LostChanges
import SerialBindings.Listings
import SerialBindings.Breaks
