import XerosKernel.IntrusiveList
import XerosKernel.Execution
import XerosKernel.SchedulerCore
import XerosKernel.MemCore
import XerosKernel.DeviceCore
import XerosKernel.DispatchCore
import XerosKernel.SyscallCore
import XerosKernel.MsgCore
import XerosKernel.DeltaList
import XerosKernel.ReadyQueue
import XerosKernel.SleepQueue
import XerosKernel.LocalCalls
import XerosKernel.Schedule
import XerosKernel.Simulation
import XerosKernel.Runs
import XerosKernel.Partition
import XerosKernel.SleepContract
import XerosKernel.WaitTermination
import XerosKernel.QueueFrame
import XerosKernel.SignalDelivery
import XerosKernel.SlotReuse
import XerosKernel.ProcessIds
import XerosKernel.Ia32
import XerosKernel.IdleProcess
import XerosKernel.KeyboardStream
import XerosKernel.Descriptors
import XerosKernel.DescriptorTable
import XerosKernel.KeyboardInterrupts
import XerosKernel.KeyboardBlocking
import XerosKernel.BufferChecks
import XerosKernel.ContextFrame
import XerosKernel.SignalFrames
import XerosKernel.SignalNesting
import XerosKernel.SharedLinks
import XerosKernel.SenderQueue
import XerosKernel.MessagePassing
import XerosKernel.DoublyLinked
import XerosKernel.FreeList
import XerosKernel.HeapBlocks
import XerosKernel.HeapRuns
import XerosKernel.Coalescing
import XerosKernel.Freeing
import XerosKernel.RequestSizes
import XerosKernel.InvalidFrees
import XerosKernel.SleepDeltas
import XerosKernel.Creation
import XerosKernel.KillEffects
import XerosKernel.PidRange
import XerosKernel.PendingSignals
import XerosKernel.CallResults
import XerosKernel.Transparency
import XerosKernel.Fifo
import XerosKernel.ReadyOrder
import XerosKernel.HeaderIntegrity
import XerosKernel.ModifierKeys
import XerosKernel.SyscallArguments
import XerosKernel.MemoryCopies
import XerosKernel.ReceiveAny
import XerosKernel.Rendezvous
import XerosKernel.DeviceReads
import XerosKernel.DataBuffers
import XerosKernel.HeapFrame
import XerosKernel.StackMemory
import XerosKernel.ContextSwitch
import XerosKernel.KernelWrites
import XerosKernel.Preemption
import XerosKernel.ProcessEntry
import XerosKernel.Countdown
import XerosKernel.CpuTimes
import XerosKernel.ScheduleRuns
import XerosKernel.WaitGraph
import XerosKernel.Deadlock
import XerosKernel.Handshake
import XerosKernel.MessageChannels
import XerosKernel.Fairness
