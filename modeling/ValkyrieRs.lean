import ValkyrieRs.Lib.Proc
import ValkyrieRs.Lib.Segment
import ValkyrieRs.Common
import ValkyrieRs.Unicorn
import ValkyrieRs.Memory
import ValkyrieRs.Fs
import ValkyrieRs.State
import ValkyrieRs.Lib.Loop
import ValkyrieRs.Syscall.Memory
import ValkyrieRs.Proof.Regions
import ValkyrieRs.Proof.MemoryCalls
import ValkyrieRs.Proof.Mirror
import ValkyrieRs.Fuzzing
import ValkyrieRs.Proof.Layout
import ValkyrieRs.Proof.Restore
import ValkyrieRs.Proof.RestoreExact
import ValkyrieRs.Proof.RestoreBytes
import ValkyrieRs.Proof.Protections
import ValkyrieRs.Proof.MmapRefused
import ValkyrieRs.Proof.MmapDelivers
import ValkyrieRs.Syscall.Common
import ValkyrieRs.Syscall.Io
import ValkyrieRs.Proof.Isolation
import ValkyrieRs.Hook
import ValkyrieRs.Proof.HookRegistry
import ValkyrieRs.Proof.HookRefinement
import ValkyrieRs.Proof.HookRuns
import ValkyrieRs.HookEnv
import ValkyrieRs.Proof.ExactlyOnce
import ValkyrieRs.Arch.X86
import ValkyrieRs.Arch.X8664
import ValkyrieRs.Dispatch
import ValkyrieRs.Proof.Unperformed
import ValkyrieRs.Lib.Walk
import ValkyrieRs.Proof.GuestPaths
import ValkyrieRs.Syscall.Stat
import ValkyrieRs.Proof.FileCalls
import ValkyrieRs.Proof.AtCalls
import ValkyrieRs.Proof.Descriptors
import ValkyrieRs.Syscall.Fd
import ValkyrieRs.Proof.Namespace
import ValkyrieRs.Proof.NamespaceRuns
import ValkyrieRs.Proof.Stdin
import ValkyrieRs.Proof.Positions
import ValkyrieRs.Syscall.Words
import ValkyrieRs.Proof.SignedWords
import ValkyrieRs.Lib.Overlay
import ValkyrieRs.Loader.Elf
import ValkyrieRs.Proof.ElfImage
import ValkyrieRs.Lib.Blocks
import ValkyrieRs.Os.Linux
import ValkyrieRs.Proof.ProcessImage
import ValkyrieRs.Proof.InitialStack
import ValkyrieRs.Proof.AddressSearch
import ValkyrieRs.Proof.HeapBreak
import ValkyrieRs.Proof.RangeArithmetic
import ValkyrieRs.Lib.Trace
import ValkyrieRs.Proof.SignalMask
import ValkyrieRs.Proof.SignalActions
import ValkyrieRs.Syscall.Thread
import ValkyrieRs.Proof.ThreadAreas
import ValkyrieRs.Lib.Chunks
import ValkyrieRs.Proof.VectorWrite
import ValkyrieRs.Proof.StatErrno
import ValkyrieRs.Syscall.Network
import ValkyrieRs.Loader.Blob
import ValkyrieRs.Proof.RecvFrom
import ValkyrieRs.Os.Setup
import ValkyrieRs.Run
import ValkyrieRs.Proof.Loading
import ValkyrieRs.Proof.RepeatedRuns
import ValkyrieRs.Proof.StartLayout
import ValkyrieRs.Proof.Packing
import ValkyrieRs.Proof.ProcessName
import ValkyrieRs.Proof.SegmentDescriptors
import ValkyrieRs.Proof.StackAlignment
import ValkyrieRs.Proof.HookRemoval
import ValkyrieRs.Coverage
import ValkyrieRs.Lib.Tally
import ValkyrieRs.Proof.CoverageMap
import ValkyrieRs.Syscall.Xattr
import ValkyrieRs.Proof.StatSizes
import ValkyrieRs.Proof.Attributes
import ValkyrieRs.Proof.ProgramHeaders
import ValkyrieRs.Proof.Utf8
import ValkyrieRs.Proof.PathTranslation
import ValkyrieRs.Proof.SnapshotCoverage
import ValkyrieRs.Proof.RangeSubtraction
import ValkyrieRs.Lib.Runs
import ValkyrieRs.Proof.SegmentChunks
import ValkyrieRs.Vstruct
import ValkyrieRs.Proof.PackedIntegers
import ValkyrieRs.Services
import ValkyrieRs.Syscall.Events
import ValkyrieRs.Syscall.Paths
import ValkyrieRs.Syscall.Process
import ValkyrieRs.Syscall.Sockets
import ValkyrieRs.Syscall.Table
import ValkyrieRs.Lib.Effect
import ValkyrieRs.Proof.EffectRules
import ValkyrieRs.Proof.FileEffects
import ValkyrieRs.Proof.PathEffects
import ValkyrieRs.Proof.ProcessEffects
import ValkyrieRs.Proof.MemoryEffects
import ValkyrieRs.Proof.SystemEffects
import ValkyrieRs.Proof.DispatchEffects
import ValkyrieRs.Proof.SystemRuns
import ValkyrieRs.Lifecycle
import ValkyrieRs.Proof.Lifecycle
import ValkyrieRs.Proof.SystemInvariants
import ValkyrieRs.Lib.Records
import ValkyrieRs.Proof.ReadBack
import ValkyrieRs.Proof.Equivalents
import ValkyrieRs.Proof.Campaigns
import ValkyrieRs.Lib.Commute
import ValkyrieRs.Proof.FreshSnapshot
import ValkyrieRs.Proof.SetUp
import ValkyrieRs.Proof.Agreement
import ValkyrieRs.Proof.CampaignLayout
