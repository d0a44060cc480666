import PcieUtil.Lib.Action
import PcieUtil.Lib.Bytes
import PcieUtil.Lib.Events
import PcieUtil.Lib.BitScan
import PcieUtil.Lib.Lines
import PcieUtil.Lib.Numerals
import PcieUtil.Driver.State
import PcieUtil.Driver.Kernel
import PcieUtil.Driver.Discipline
import PcieUtil.Driver.Transfers
import PcieUtil.Driver.Bounds
import PcieUtil.Driver.Faults
import PcieUtil.Driver.Snapshot
import PcieUtil.System.OpenClose
import PcieUtil.System.Regions
import PcieUtil.Driver.Interfaces
import PcieUtil.Driver.Probe
import PcieUtil.Driver.Nodes
import PcieUtil.Driver.Probing
import PcieUtil.Driver.Requests
import PcieUtil.System.Hotplug
import PcieUtil.System.Files
import PcieUtil.System.Interrupts
import PcieUtil.System.Registers
import PcieUtil.System.Sharing
import PcieUtil.Driver.Chunks
import PcieUtil.Driver.Mmap
import PcieUtil.Driver.ConfigWrites
import PcieUtil.System.Numbering
import PcieUtil.Driver.Walking
import PcieUtil.Driver.Books
import PcieUtil.Driver.Creation
import PcieUtil.Driver.Cleanup
import PcieUtil.System.Mappings
import PcieUtil.Driver.Callees
import PcieUtil.Driver.Recovery
import PcieUtil.System.ErrorRecovery
import PcieUtil.System.HandlerData
import PcieUtil.Driver.Twins
import PcieUtil.Driver.ConfigTwins
import PcieUtil.Driver.FieldFiles
import PcieUtil.Driver.Isr
import PcieUtil.Driver.Vectors
import PcieUtil.Driver.BarRoles
import PcieUtil.Driver.Completion
import PcieUtil.Driver.DeviceInfo
import PcieUtil.Enum.RegionAmount
import PcieUtil.Enum.PciTree
import PcieUtil.Enum.PciRegion
import PcieUtil.Enum.RegionNames
import PcieUtil.Cmdline.Words
import PcieUtil.Cmdline.Options
import PcieUtil.Cmdline.Parse
import PcieUtil.Cmdline.Reading
import PcieUtil.Cmdline.Verdict
import PcieUtil.Cmdline.History
import PcieUtil.System.Bindings
import PcieUtil.Lib.Accounts
import PcieUtil.System.UserEvents
import PcieUtil.Cmdline.Usage
import PcieUtil.Driver.Routing
import PcieUtil.Enum.DeviceFiles
import PcieUtil.Enum.Main
import PcieUtil.Lib.Cells
import PcieUtil.System.Lifetimes
import PcieUtil.System.RegisterMemory
import PcieUtil.Driver.Directory
import PcieUtil.System.NodeFiles
