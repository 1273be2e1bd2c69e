import HardwareDrivers.Libfpga.ShmemMmapInvariants
import HardwareDrivers.Theory.BoundedFifo
import HardwareDrivers.Libfpga.Shmem
import HardwareDrivers.Driver.XpcieDevice
import HardwareDrivers.Libfpga.Dma
import HardwareDrivers.Libfpga.DmaFifo
import HardwareDrivers.Libfpga.Lldma
import HardwareDrivers.Libfpga.ShmemTranslation
import HardwareDrivers.Libfpga.ShmemConcurrent
import HardwareDrivers.Libfpga.DmaShared
import HardwareDrivers.Driver.Lldma
import HardwareDrivers.Driver.LldmaIoctl
import HardwareDrivers.Theory.Leases
import HardwareDrivers.Driver.LldmaOwnership
import HardwareDrivers.Driver.LldmaBind
import HardwareDrivers.Driver.LldmaChannels
import HardwareDrivers.Theory.Banked
import HardwareDrivers.Driver.LldmaInterleave
import HardwareDrivers.Libfpga.LldmaTableAgrees
import HardwareDrivers.Driver.ChainSameRequest
import HardwareDrivers.Libfpga.Bitstream
import HardwareDrivers.Libfpga.ShmemManager
import HardwareDrivers.Libfpga.ChainConnect
import HardwareDrivers.Libfpga.ChainReads
import HardwareDrivers.Driver.ChainInterleave
import HardwareDrivers.Libfpga.ShmemTable
import HardwareDrivers.Libfpga.ShmemAccounting
import HardwareDrivers.Libfpga.ShmemReaping
import HardwareDrivers.Libfpga.ShmemErrorPrefix
import HardwareDrivers.Libfpga.ShmemHandshake
import HardwareDrivers.Libfpga.ShmemController
import HardwareDrivers.Libfpga.ShmemRequest
import HardwareDrivers.Driver.LldmaConnect
import HardwareDrivers.Libfpga.LldmaConnect
import HardwareDrivers.Libfpga.ShmemDisable
import HardwareDrivers.Driver.LldmaRaw
import HardwareDrivers.Driver.LldmaRawSafe
import HardwareDrivers.Driver.ChainRaw
import HardwareDrivers.Driver.ChainRawSafe
import HardwareDrivers.Driver.IoctlDispatch
import HardwareDrivers.Driver.GetIoctlsLeak
import HardwareDrivers.Driver.StatCounters
import HardwareDrivers.Libfpga.StatReads
import HardwareDrivers.Theory.Slots
import HardwareDrivers.Libfpga.DeviceTable
import HardwareDrivers.Libfpga.DeviceTableSound
import HardwareDrivers.Libptu.PtuDev
import HardwareDrivers.Libptu.SocketTable
import HardwareDrivers.Libptu.Accept
import HardwareDrivers.Theory.Interference
import HardwareDrivers.Libptu.Mailbox
import HardwareDrivers.Theory.Ledger
import HardwareDrivers.Libfpga.FunctionTable
import HardwareDrivers.Libfpga.FunctionTableSound
import HardwareDrivers.Libfpga.ShmemAllocLoop
import HardwareDrivers.Libfpga.RingHeads
import HardwareDrivers.Libfpga.QueueSetup
import HardwareDrivers.Libfpga.QueueSetupSound
import HardwareDrivers.Libfpga.ShmemFinishAll
import HardwareDrivers.Libfpga.ShmemFinishAllSound
import HardwareDrivers.Libfpga.ShmemLimit
import HardwareDrivers.Libfpga.ShmemPrefix
import HardwareDrivers.Libfpga.DeviceOpen
import HardwareDrivers.Libfpga.DeviceOptions
import HardwareDrivers.Libfpga.DeviceList
import HardwareDrivers.Driver.CdevAccess
import HardwareDrivers.Driver.StoredRegs
import HardwareDrivers.Driver.LldmaBuffer
import HardwareDrivers.Theory.BitFields
import HardwareDrivers.Driver.SetIoctls
import HardwareDrivers.Driver.ErrRegisters
import HardwareDrivers.Driver.LldmaClose
import HardwareDrivers.Driver.PciProbe
import HardwareDrivers.Theory.ShellWords
import HardwareDrivers.Libfpga.ReconfigCommand
import HardwareDrivers.Libfpga.ShmemEndpoints
import HardwareDrivers.Libfpga.JsonParams
import HardwareDrivers.Theory.PartialWrites
import HardwareDrivers.Libfpga.FilterResize
import HardwareDrivers.Libfpga.FilterResizeSetting
import HardwareDrivers.Libfpga.CoreMask
import HardwareDrivers.Theory.Decimals
import HardwareDrivers.Libfpga.CpuList
import HardwareDrivers.Libfpga.ShmemHostInfo
import HardwareDrivers.Libfpga.ShmemLaunch
import HardwareDrivers.Theory.PointerMap
import HardwareDrivers.Libptu.Lanes
import HardwareDrivers.Libptu.ConnectFailure
import HardwareDrivers.Libptu.Settings
import HardwareDrivers.Theory.CheckedInts
import HardwareDrivers.Libfpga.Polling
import HardwareDrivers.Libptu.TcbWait
import HardwareDrivers.Theory.RegionLookup
import HardwareDrivers.Libfpga.ShmemLookup
import HardwareDrivers.Driver.CmsMailbox
import HardwareDrivers.Theory.FileLocks
import HardwareDrivers.Libfpga.ShmemLockFile
import HardwareDrivers.Libfpga.ShmemUserFinish
import HardwareDrivers.Libfpga.ShmemNotice
import HardwareDrivers.Libfpga.ReconfigProcesses
import HardwareDrivers.Libfpga.ChainWaits
import HardwareDrivers.Libfpga.FunctionFaults
import HardwareDrivers.Theory.Directory
import HardwareDrivers.Libfpga.Logging
import HardwareDrivers.Theory.Balances
import HardwareDrivers.Driver.ModuleLoad
import HardwareDrivers.Libfpga.ShmemVersionFile
import HardwareDrivers.Theory.SetupPhases
import HardwareDrivers.Libfpga.ResizeLanes
import HardwareDrivers.Driver.FixedRegs
import HardwareDrivers.Driver.ChainDdr
import HardwareDrivers.Libfpga.Sensors
import HardwareDrivers.Theory.CharArrays
import HardwareDrivers.Libfpga.ConfigFiles
