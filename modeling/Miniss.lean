import Miniss.Data.Sweep
import Miniss.Data.Buckets
import Miniss.Data.Loop
import Miniss.Data.Channel
import Miniss.Data.ReadyQueue
import Miniss.Data.RefCount
import Miniss.Data.Vec
import Miniss.Timer.Wheel
import Miniss.Timer.Operations
import Miniss.Timer.Run
import Miniss.Timer.Timing
import Miniss.Runtime.Task
import Miniss.Runtime.Executor
import Miniss.Runtime.ExecutorRun
import Miniss.Io.State
import Miniss.Io.Handoff
import Miniss.Io.Buffer
import Miniss.Runtime.Cpu
import Miniss.Runtime.Handles
import Miniss.Runtime.CpuRun
import Miniss.Runtime.Multicore
import Miniss.Runtime.Waker
import Miniss.Runtime.Cancel
import Miniss.Io.Drop
import Miniss.Data.Str
import Miniss.Http
import Miniss.Io.Uring
import Miniss.Io.UringRun
import Miniss.Data.Run
import Miniss.Io.Net
import Miniss.Io.ReadBytes
import Miniss.Timer.Futures
import Miniss.Runtime.Shutdown
import Miniss.Http.Response
import Miniss.Runtime.Stall
import Miniss.Runtime.Signal
import Miniss.Runtime.Progress
