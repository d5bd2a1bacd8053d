import AislabVP.Foundation.Bytes
import AislabVP.Foundation.Runs
import AislabVP.Foundation.Lock
import AislabVP.Vpipc.Message
import AislabVP.Foundation.Frames
import AislabVP.Vpipc.Stream
import AislabVP.SystemC.Memory
import AislabVP.SystemC.QemuCpu
import AislabVP.Vpipc.ConnectionState
import AislabVP.Vpipc.Readiness
import AislabVP.Platform.Dma
import AislabVP.Platform.Mmio
import AislabVP.Platform.CallSteps
import AislabVP.Platform.Exclusive
import AislabVP.Platform.Interleaving
import AislabVP.Platform.Orphans
import AislabVP.Foundation.Exchange
import AislabVP.Foundation.Ranges
import AislabVP.Vpipc.CallerArray
import AislabVP.Vpipc.Descriptors
import AislabVP.Qemu.CopyLength
import AislabVP.Qemu.Iteration
import AislabVP.SystemC.Bounds
import AislabVP.Platform.StaleAnswers
import AislabVP.Platform.ResponseHistory
import AislabVP.Platform.SelfLock
import AislabVP.Platform.Storm
import AislabVP.Board.MemMap
import AislabVP.Board.Layout
import AislabVP.SystemC.DebugTransport
import AislabVP.Vpipc.Copies
import AislabVP.Foundation.Slots
import AislabVP.Board.Options
import AislabVP.Board.DeviceTree
import AislabVP.Board.TreeNodes
import AislabVP.Board.TreeLinks
import AislabVP.Board.InterruptLinks
import AislabVP.Board.ImsicPages
import AislabVP.Foundation.AtomicObject
import AislabVP.Foundation.Bisimulation
import AislabVP.Qemu.Adder
import AislabVP.Platform.Linearizable
import AislabVP.Platform.Progress
import AislabVP.Platform.AdderPlatform
import AislabVP.Vpipc.Roster
import AislabVP.Vpipc.Accounts
import AislabVP.Qemu.Clients
import AislabVP.Board.BusOwners
import AislabVP.Board.InterruptRoutes
import AislabVP.Platform.PrivateWords
import AislabVP.Foundation.Parts
import AislabVP.Platform.GuestAccesses
import AislabVP.SystemC.DirectMemory
import AislabVP.Foundation.NodePaths
import AislabVP.Board.FdtCalls
import AislabVP.Board.FdtBuild
