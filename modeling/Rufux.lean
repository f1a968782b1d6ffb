import Rufux.Library.Directory
import Rufux.Library.Splice
import Rufux.Library.Paging
import Rufux.Library.Run
import Rufux.Library.DirGraph
import Rufux.Library.DirTree
import Rufux.Library.WordProg
import Rufux.Library.Search
import Rufux.Library.RecordMarking
import Rufux.Library.Calls
import Rufux.Library.Xdr
import Rufux.Library.RecordSending
import Rufux.Library.Serial
import Rufux.Library.ByteMap
import Rufux.Library.Transfers
import Rufux.Library.PageCache
import Rufux.Library.KeyValue
import Rufux.Library.Checked
import Rufux.Library.Tiling
import Rufux.Library.Json
import Rufux.Library.Reporting
import Rufux.Mountd.Protocol
import Rufux.Mountd.ParentCache
import Rufux.Mountd.Ext.Volume
import Rufux.Mountd.Ext.Ops
import Rufux.Mountd.Ntfs.Volume
import Rufux.Mountd.Ntfs.Ops
import Rufux.Mountd.Server
import Rufux.Mountd.Ext.Effects
import Rufux.Mountd.Ext.Quiet
import Rufux.Mountd.WriteSemantics
import Rufux.Mountd.Durability
import Rufux.Mountd.ExclusiveCreate
import Rufux.Mountd.Enumeration
import Rufux.Mountd.Ext.Cases
import Rufux.Mountd.Ntfs.Cases
import Rufux.Mountd.Ext.Frame
import Rufux.Mountd.Ext.Graph
import Rufux.Mountd.Ext.Edits
import Rufux.Mountd.Ntfs.Frame
import Rufux.Mountd.Ntfs.Graph
import Rufux.Mountd.Ntfs.Edits
import Rufux.Mountd.Objects
import Rufux.Mountd.Namespace
import Rufux.Mountd.NamespaceTree
import Rufux.Mountd.ParentCoherence
import Rufux.Mountd.RenameAtomic
import Rufux.Mountd.NameUniqueness
import Rufux.Mountd.DeadHandle
import Rufux.Mountd.Metadata
import Rufux.Mountd.IssuedHandles
import Rufux.Mountd.HandleIdentity
import Rufux.Macos.Partition
import Rufux.Macos.BootDisk
import Rufux.Macos.Gpt
import Rufux.Macos.GptRead
import Rufux.Macos.TableAreas
import Rufux.Macos.RoundTrip
import Rufux.Macos.BiosBoot
import Rufux.Macos.BootFrame
import Rufux.Macos.Msdl
import Rufux.Macos.Download
import Rufux.Macos.StreamHash
import Rufux.Macos.MountState
import Rufux.Macos.Mount
import Rufux.Macos.MountSafety
import Rufux.Macos.MountLife
import Rufux.Macos.MountMatching
import Rufux.Mountd.Stream
import Rufux.Mountd.Reassembly
import Rufux.Linux.Mounts
import Rufux.Linux.Target
import Rufux.Imaging.Writer
import Rufux.Imaging.Passes
import Rufux.Imaging.Exact
import Rufux.Imaging.Badblocks
import Rufux.Imaging.Verification
import Rufux.Mountd.Rpc
import Rufux.Mountd.ReplyGrammar
import Rufux.Mountd.DecodeFirst
import Rufux.Mountd.RpcReply
import Rufux.Mountd.Backend
import Rufux.Mountd.Attributes
import Rufux.Mountd.Ext.Attributes
import Rufux.Macos.MountSweep
import Rufux.Bootcheck.PeImage
import Rufux.Bootcheck.Policy
import Rufux.Bootcheck.PeBounds
import Rufux.Bootcheck.Authenticode
import Rufux.Bootcheck.Dbx
import Rufux.Bootcheck.Sbat
import Rufux.Linux.Mjson
import Rufux.Linux.MjsonGrammar
import Rufux.Create.Progress
import Rufux.Create.LinuxFlows
import Rufux.Create.MacosFlows
import Rufux.Create.Monotone
import Rufux.Create.EndToEnd
import Rufux.Create.Steady
import Rufux.Mountd.CompletePaging
import Rufux.Mountd.ReplySize
import Rufux.Mountd.XdrCursor
import Rufux.Mountd.XdrRoundTrip
import Rufux.Library.Utf8
import Rufux.Linux.MjsonText
import Rufux.Mountd.ReadExact
import Rufux.Library.Positioned
import Rufux.Macos.DosBoot
import Rufux.Macos.BootRecords
import Rufux.Macos.Chs
import Rufux.Macos.LabelUnits
import Rufux.Mountd.ParentCacheLaw
import Rufux.Linux.UdisksMount
import Rufux.Library.LineReader
import Rufux.Macos.MountStateFile
import Rufux.Linux.Device
import Rufux.Linux.DeviceJson
import Rufux.Macos.NtfsPopulate
import Rufux.Macos.NtfsPopulateTree
import Rufux.Linux.Vdisk
import Rufux.Macos.GptBounds
import Rufux.Imaging.BadblocksSound
import Rufux.Imaging.Vhd
import Rufux.Linux.Wue
import Rufux.Create.Effects.LinuxSafety
import Rufux.Create.Effects.MacosCleanup
import Rufux.Cli.Consent
import Rufux.Cli.Guard
import Rufux.Mountd.Poll
import Rufux.Mountd.PollEvents
import Rufux.Mountd.PollSerial
import Rufux.Mountd.WireNames
