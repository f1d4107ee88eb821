import ThreadMetric.Library.Transition
import ThreadMetric.Library.Counts
import ThreadMetric.Library.ByteMemory
import ThreadMetric.Library.Thumb
import ThreadMetric.Library.RecursiveMutex
import ThreadMetric.Library.CString
import ThreadMetric.Library.Decimal
import ThreadMetric.Library.Strtol
import ThreadMetric.Library.Lines
import ThreadMetric.Library.Services
import ThreadMetric.Library.ReadyTasks
import ThreadMetric.Report.Tolerance
import ThreadMetric.Report.Reporter
import ThreadMetric.Report.Benchmark
import ThreadMetric.Report.Totals
import ThreadMetric.Report.Printf
import ThreadMetric.Report.DigitBuffer
import ThreadMetric.Report.Parameters
import ThreadMetric.Report.Startup
import ThreadMetric.Kernel.Machine
import ThreadMetric.Kernel.Rounds
import ThreadMetric.Benchmarks.CooperativeScheduling
import ThreadMetric.Benchmarks.CooperativeTimeSlicing
import ThreadMetric.Benchmarks.PreemptiveScheduling
import ThreadMetric.Benchmarks.InterruptPreemptionProcessing
import ThreadMetric.Benchmarks.InterruptProcessing
import ThreadMetric.Benchmarks.DeadWorker
import ThreadMetric.Benchmarks.SingleCounter
import ThreadMetric.Benchmarks.SnapshotTests
import ThreadMetric.Benchmarks.BasicProcessing
import ThreadMetric.Ports.Sleep
import ThreadMetric.FreeRTOS.MemoryPool
import ThreadMetric.FreeRTOS.PreemptedPool
import ThreadMetric.Ports.ObjectServices
import ThreadMetric.Ports.Interchange
import ThreadMetric.Ports.ThreadServices
import ThreadMetric.Ports.ThreadInterchange
import ThreadMetric.FreeRTOS.InterruptContext
import ThreadMetric.Ports.Initialization
import ThreadMetric.Ports.ResetHandler
import ThreadMetric.Benchmarks.ServiceWorkers
import ThreadMetric.ThreadX.Signals
import ThreadMetric.ThreadX.Handoff
import ThreadMetric.ThreadX.HandoffInvariant
import ThreadMetric.ThreadX.HandoffScheduler
import ThreadMetric.ThreadX.HandoffThread
import ThreadMetric.ThreadX.HandoffTimer
import ThreadMetric.ThreadX.HandoffSafety
import ThreadMetric.ThreadX.HandoffWork
import ThreadMetric.ThreadX.HandoffLive
import ThreadMetric.ThreadX.HandoffProgress
import ThreadMetric.ThreadX.TimerTick
import ThreadMetric.ThreadX.InterruptPosture
import ThreadMetric.ThreadX.SyntheticIsr
import ThreadMetric.Ci.CheckLoop
import ThreadMetric.Ci.CollectData
import ThreadMetric.Ci.Aggregate
import ThreadMetric.Ci.Verdict
import ThreadMetric.Ci.Sections
import ThreadMetric.Ci.RoundTrip
import ThreadMetric.Ci.FormatSummary
import ThreadMetric.Ci.JobReport
import ThreadMetric.Ci.TestStatus
import ThreadMetric.Ci.ReporterOutput
import ThreadMetric.Ci.QemuRun
