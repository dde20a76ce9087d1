import TimerAndCallback.Foundation.Execution
import TimerAndCallback.Foundation.Refinement
import TimerAndCallback.Foundation.Outcomes
import TimerAndCallback.Foundation.NestedSections
import TimerAndCallback.Foundation.AlarmService
import TimerAndCallback.Foundation.Mailbox
import TimerAndCallback.Foundation.Ownership
import TimerAndCallback.Foundation.SlotEntries
import TimerAndCallback.Foundation.HeapOrder
import TimerAndCallback.Foundation.FreeList
import TimerAndCallback.Foundation.EventLog
import TimerAndCallback.Foundation.ByteStream
import TimerAndCallback.Foundation.Binary32
import TimerAndCallback.Common.Types
import TimerAndCallback.Common.Util
import TimerAndCallback.Common.ItemStream
import TimerAndCallback.Common.StringStream
import TimerAndCallback.Common.FloatStream
import TimerAndCallback.Platform.MemoryPool
import TimerAndCallback.Platform.MemoryPoolLayout
import TimerAndCallback.Platform.MemoryPoolAccess
import TimerAndCallback.Platform.MemoryPoolAllocator
import TimerAndCallback.Platform.MemoryPoolInvalidFree
import TimerAndCallback.Platform.MemoryPoolSharing
import TimerAndCallback.Platform.TimerMinHeap
import TimerAndCallback.Platform.TimerMinHeapSift
import TimerAndCallback.Platform.TimerMinHeapContents
import TimerAndCallback.Platform.TimerMinHeapChange
import TimerAndCallback.Platform.TimerMinHeapRemoval
import TimerAndCallback.Platform.TimerMinHeapLastSlot
import TimerAndCallback.Platform.TimerMinHeapOccupancy
import TimerAndCallback.Platform.TimerMinHeapSubtree
import TimerAndCallback.Platform.TimerMinHeapOrder
import TimerAndCallback.Platform.TimerPriority
import TimerAndCallback.Platform.TimerMinHeapHistory
import TimerAndCallback.Platform.TimerMinHeapAccess
import TimerAndCallback.Platform.Timer
import TimerAndCallback.Platform.TimerSystem
import TimerAndCallback.Platform.PosixMessageQueueObject
import TimerAndCallback.Platform.PosixMessageQueue
import TimerAndCallback.Platform.PosixMessageQueueRun
import TimerAndCallback.Run.Step
import TimerAndCallback.Run.Transition
import TimerAndCallback.Run.WellFormed
import TimerAndCallback.Run.Frame
import TimerAndCallback.Run.CancelledTimer
import TimerAndCallback.Run.StoppedTimer
import TimerAndCallback.Run.ActiveTimers
import TimerAndCallback.Run.HeapRepresentation
import TimerAndCallback.Run.HeapSafety
import TimerAndCallback.Run.MessageIncarnation
import TimerAndCallback.Run.PlainClient
import TimerAndCallback.Run.PeriodicCount
import TimerAndCallback.Run.RequestedTime
import TimerAndCallback.Run.RejectedSchedule
import TimerAndCallback.Run.RestartedTimer
import TimerAndCallback.Run.FreshTimer
import TimerAndCallback.Run.OwnCalls
import TimerAndCallback.Run.OwnCallback
import TimerAndCallback.Run.FuzzyWindow
import TimerAndCallback.Run.QueuedStep
import TimerAndCallback.Run.QueuedRefinement
import TimerAndCallback.Run.QueuedClient
import TimerAndCallback.Run.CallbackStep
import TimerAndCallback.Run.CallbackOwnership
import TimerAndCallback.Run.DueTimers
import TimerAndCallback.Run.AlarmRefinement
import TimerAndCallback.Run.SemaphoreCalls
import TimerAndCallback.Run.ServiceRounds
