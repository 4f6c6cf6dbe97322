import Spycat.Lib.Search
import Spycat.Lib.Radix
import Spycat.Lib.RadixMap
import Spycat.Lib.Run
import Spycat.Lib.Uvarint
import Spycat.Util.Trie
import Spycat.Util.TrieCodec
import Spycat.Proofs.Util.TrieInsert
import Spycat.Proofs.Util.TrieMap
import Spycat.Proofs.Util.TrieBytes
import Spycat.Proofs.Util.TrieDeserialize
import Spycat.Proofs.Util.TrieOrder
import Spycat.Proofs.Util.TrieIterateRaw
import Spycat.Core.SpyEvent
import Spycat.Lib.LittleEndian
import Spycat.Lib.Assoc
import Spycat.Core.DataBlock
import Spycat.Detector.Labels
import Spycat.Detector.CpuDetector
import Spycat.Proofs.Detector.CpuUpload
import Spycat.Proofs.Detector.CpuInit
import Spycat.Lib.Words
import Spycat.Processor.AggValues
import Spycat.Processor.Aggregator
import Spycat.Processor.LabelKey
import Spycat.Lib.Partial
import Spycat.Proofs.Processor.Conservation
import Spycat.Ebpf.BpfMap
import Spycat.Symtab.WalkStack
import Spycat.Ebpf.Oncpu
import Spycat.Ebpf.OncpuSession
import Spycat.Proofs.Ebpf.OncpuCounts
import Spycat.Proofs.Ebpf.OncpuSteps
import Spycat.App.Pipeline
import Spycat.Detector.DetectorManager
import Spycat.Detector.MemDetector
import Spycat.Lib.Pool
import Spycat.Proofs.App.Conservation
import Spycat.Ebpf.Futexsnoop
import Spycat.Proofs.Ebpf.FutexUsers
import Spycat.Exporter.Batching
import Spycat.Proofs.Exporter.Batching
import Spycat.Exporter.Sqlite
import Spycat.Proofs.Exporter.SqliteFlush
import Spycat.Lib.Layout
import Spycat.Ebpf.Syscall
import Spycat.Proofs.Ebpf.SyscallStart
import Spycat.Ebpf.Offcpu
import Spycat.Lib.Trail
import Spycat.Proofs.Ebpf.OffcpuSteps
import Spycat.Proofs.Ebpf.OffcpuIntervals
import Spycat.Ebpf.StackSession
import Spycat.Ebpf.OffcpuSession
import Spycat.Proofs.Ebpf.OffcpuBytes
import Spycat.Proofs.Ebpf.OffcpuDumps
import Spycat.Proofs.Detector.LabelSwitch
import Spycat.Proofs.Ebpf.OffcpuLabels
import Spycat.Proofs.Ebpf.OffcpuTimes
import Spycat.Ebpf.SyscallSession
import Spycat.Ebpf.SyscallTable
import Spycat.Proofs.Ebpf.SyscallLabels
import Spycat.Ebpf.FutexsnoopSession
import Spycat.Proofs.Ebpf.FutexLabels
import Spycat.Proofs.Ebpf.OncpuOrigin
import Spycat.Proofs.Ebpf.OncpuLabels
import Spycat.Ebpf.CachestatSession
import Spycat.Proofs.Ebpf.CachestatChain
import Spycat.Ebpf.FutexsnoopArgs
import Spycat.Proofs.Ebpf.FutexFilters
import Spycat.Proofs.Ebpf.OncpuStacks
import Spycat.Proofs.Detector.CpuWindows
import Spycat.Util.AlignedTicker
import Spycat.Detector.RemoteWorkers
import Spycat.Proofs.Detector.RemoteStop
import Spycat.Proofs.Util.TrieGrammar
import Spycat.Proofs.Util.TrieTruncation
import Spycat.Proofs.Processor.Histogram
import Spycat.Proofs.Processor.Kinds
import Spycat.Proofs.Processor.Panics
import Spycat.Lib.TextBytes
import Spycat.Proofs.Processor.LabelKeys
import Spycat.Proofs.Processor.SortedKeys
import Spycat.Core.AttributeArray
import Spycat.Proofs.Core.Attributes
import Spycat.Lib.BinaryLog
import Spycat.Proofs.Ebpf.FutexSlots
import Spycat.Proofs.Ebpf.FutexHistories
import Spycat.Proofs.Ebpf.FutexTallies
import Spycat.Proofs.Ebpf.FutexDurations
import Spycat.Proofs.Ebpf.FutexThresholds
import Spycat.Ebpf.Cachestat
import Spycat.Proofs.Ebpf.CachestatSums
import Spycat.Ebpf.SyscallArgs
import Spycat.Proofs.Ebpf.SyscallFilter
import Spycat.Detector.CpuStop
import Spycat.Proofs.Detector.CpuStop
import Spycat.Exporter.SpyExporter
import Spycat.App.Config
import Spycat.Lib.Record
import Spycat.Proofs.Exporter.SpyFiles
import Spycat.Util.CopyStruct
import Spycat.Proofs.App.Copying
import Spycat.App.ToolsConfig
import Spycat.Proofs.App.ToolsConfig
import Spycat.Proofs.Util.CpuRange
import Spycat.Util.CpuRange
import Spycat.Proofs.Symtab.SimpleSymbolTable
import Spycat.Symtab.SimpleSymbolTable
import Spycat.Lib.Lifecycle
import Spycat.Lib.Lru
import Spycat.Symtab.SymbolCache
import Spycat.Proofs.Symtab.SymbolCache
import Spycat.Proofs.Symtab.SymbolCacheRuns
import Spycat.Proofs.Symtab.SymbolCacheRounds
import Spycat.Lib.ReverseInPlace
import Spycat.Proofs.Symtab.SymSession
import Spycat.Symtab.SymSession
import Spycat.Lib.RadixPlace
import Spycat.Util.TrieWalk
import Spycat.Proofs.Util.TrieInvariant
import Spycat.Lib.Ring
import Spycat.Proofs.Ebpf.OffcpuCaches
import Spycat.Proofs.Ebpf.OffcpuCopies
import Spycat.Ebpf.OffcpuArgs
import Spycat.Proofs.Ebpf.OffcpuFilter
import Spycat.Proofs.Ebpf.SyscallCalls
import Spycat.Ebpf.CachestatRounds
import Spycat.Proofs.Ebpf.CachestatRounds
import Spycat.App.Deployment
import Spycat.Proofs.App.Deployment
import Spycat.Proofs.App.Samples
import Spycat.Proofs.Util.BootTime
import Spycat.Util.BootTime
import Spycat.Core.AttributeMaps
import Spycat.Lib.Cells
import Spycat.Proofs.Core.AttributeMaps
import Spycat.Util.KprobeExists
import Spycat.Proofs.Util.KprobeExists
import Spycat.Proofs.Ebpf.OffcpuAttach
import Spycat.Detector.ProfileRequest
import Spycat.Proofs.Detector.ProfileBytes
import Spycat.Proofs.Exporter.SqliteLabels
