import KernelAbi.Bridge
import KernelAbi.Errno
import KernelAbi.Flags
import KernelAbi.Flags.Allocation
import KernelAbi.Flags.Helpers
import KernelAbi.Flags.Hooks
import KernelAbi.Flags.Vendor
import KernelAbi.Hex
import KernelAbi.Hook
import KernelAbi.Hook.Policy
import KernelAbi.Hook.Registration
import KernelAbi.Host
import KernelAbi.Host.Interference
import KernelAbi.Host.Recorder
import KernelAbi.Lock
import KernelAbi.Log.Console
import KernelAbi.Log.Line
import KernelAbi.Log.Ring
import KernelAbi.Log.Script
import KernelAbi.Machine
import KernelAbi.Memory.Bitmap
import KernelAbi.Memory.Buffer
import KernelAbi.Memory.Growth
import KernelAbi.Memory.Request
import KernelAbi.Memory.Script
import KernelAbi.Object
import KernelAbi.Proofs.Recording
import KernelAbi.Selection
import KernelAbi.Selection.Report
import KernelAbi.Selection.Request
import KernelAbi.Selection.Resolve
import KernelAbi.Selection.Threshold
import KernelAbi.Session
import KernelAbi.Session.Step
import KernelAbi.Version
import KernelAbi.Version.Release
import KernelAbi.Proofs.Registration
import KernelAbi.Proofs.Operation
import KernelAbi.Proofs.Availability
import KernelAbi.Proofs.Indifference
import KernelAbi.Proofs.StringCopy
import KernelAbi.Proofs.RingContent
import KernelAbi.Proofs.ReleaseGrammar
import KernelAbi.Proofs.HookDispatch
import KernelAbi.Proofs.HookRun
import KernelAbi.Proofs.FileObservation
import KernelAbi.Proofs.BitmapSet
import KernelAbi.Proofs.HostFailure
import KernelAbi.Proofs.FileStream
import KernelAbi.Proofs.SessionKeyring
import KernelAbi.Proofs.BufferGrowth
import KernelAbi.Proofs.SelectionSeries
import KernelAbi.Proofs.ConsoleStream
import KernelAbi.Proofs.FirstFree
import KernelAbi.Proofs.FlagInclusion
import KernelAbi.Proofs.SelectionGrowth
import KernelAbi.Proofs.Refusal
import KernelAbi.Proofs.HexNumeral
import KernelAbi.Proofs.LineText
import KernelAbi.Proofs.RingSearch
import KernelAbi.Proofs.ReportIdentity
import KernelAbi.Proofs.TransferBounds
import KernelAbi.Proofs.StringBound
import KernelAbi.Proofs.BitmapStorage
import KernelAbi.Proofs.LockExactness
import KernelAbi.Proofs.VersionOrder
import KernelAbi.Proofs.GroupOrder
import KernelAbi.Proofs.HexWriter
