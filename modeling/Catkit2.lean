import Catkit2.Core.LTS
import Catkit2.Core.Memory
import Catkit2.Core.TailLog
import Catkit2.Core.OrdMap
import Catkit2.L1Encoding.Tensor
import Catkit2.L1Encoding.Types
import Catkit2.L2Stream.DataStream
import Catkit2.L2Stream.LogRefinement
import Catkit2.L2Stream.Writers
import Catkit2.Core.Number
import Catkit2.L3Service.SafetyMonitor
import Catkit2.Core.DepthFirst
import Catkit2.L4Testbed.Config
import Catkit2.L4Testbed.Start
import Catkit2.L4Testbed.ShutDown
import Catkit2.L4Testbed.Monitor
import Catkit2.L5Instruments.DeformableMirror
import Catkit2.L4Testbed.ShutDownEnd
import Catkit2.Core.LeafRemoval
import Catkit2.L4Testbed.Circular
import Catkit2.L5Instruments.OpticalModel
import Catkit2.L1Encoding.CastTo
import Catkit2.L3Service.Property
import Catkit2.L5Instruments.Simulator
import Catkit2.L5Instruments.SimulatorClock
import Catkit2.Core.Script
import Catkit2.L4Testbed.ServiceProxy
import Catkit2.L4Testbed.ProxyTables
import Catkit2.L4Testbed.Launch
import Catkit2.L4Testbed.LaunchLate
import Catkit2.L4Testbed.Heartbeat
import Catkit2.L2Stream.Layout
import Catkit2.L2Stream.GetFrame
import Catkit2.L2Stream.GetNextFrame
import Catkit2.L2Stream.Synchronization
import Catkit2.L2Stream.WaitingReaders
import Catkit2.Core.ObjectHeap
import Catkit2.L4Testbed.DeepUpdate
import Catkit2.Core.LastWrite
import Catkit2.L4Testbed.ConfigFiles
import Catkit2.L5Instruments.Integration
import Catkit2.L3Service.RequestReply
import Catkit2.L3Service.OwnReply
import Catkit2.L1Encoding.PeerMessage
import Catkit2.L1Encoding.PyValue
import Catkit2.L3Service.SetProperty
import Catkit2.L3Service.MessageLoop
import Catkit2.L3Service.LostWakeup
import Catkit2.Core.Text
import Catkit2.Core.PercentFormat
import Catkit2.L4Testbed.LogText
import Catkit2.L4Testbed.LogOutput
import Catkit2.L4Testbed.TraceWriter
import Catkit2.L5Instruments.CameraProxy
import Catkit2.Core.Heapq
import Catkit2.Core.PriorityQueue
import Catkit2.L5Instruments.SimulatorLoop
import Catkit2.L5Instruments.SimulatorOrder
import Catkit2.L5Instruments.SimulatorThrottle
import Catkit2.L4Testbed.SafetyService
import Catkit2.L4Testbed.StartAtomic
import Catkit2.L4Testbed.ServiceRun
import Catkit2.L2Stream.ArrayViews
import Catkit2.Core.NdArray
import Catkit2.L5Instruments.FlattenChannels
import Catkit2.L5Instruments.DmShapes
import Catkit2.L5Instruments.BmcSurface
import Catkit2.L5Instruments.Varia
import Catkit2.L2Stream.SubmitFrame
import Catkit2.L4Testbed.IsAlive
import Catkit2.Core.Stoi
import Catkit2.Core.Aliases
import Catkit2.L4Testbed.ServiceArgs
import Catkit2.L5Instruments.NamedPositions
import Catkit2.Core.Cleanup
import Catkit2.L4Testbed.Experiment
import Catkit2.L4Testbed.ExperimentPaths
import Catkit2.L3Service.AtMostOnce
import Catkit2.L4Testbed.RemoteCall
import Catkit2.L5Instruments.ZwoCamera
import Catkit2.L5Instruments.SafeClose
import Catkit2.L5Instruments.MotorMoves
import Catkit2.L4Testbed.Serving
import Catkit2.L4Testbed.LogPipeline
import Catkit2.L4Testbed.TraceIntervals
import Catkit2.Core.Deadline
import Catkit2.L4Testbed.FailSafe
import Catkit2.L4Testbed.Reaping
import Catkit2.L4Testbed.TestbedRun
import Catkit2.L4Testbed.Orphans
