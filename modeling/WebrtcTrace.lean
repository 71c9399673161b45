import WebrtcTrace.AudioLab.GapEffects
import WebrtcTrace.Congestion.ControllerRuns
import WebrtcTrace.Congestion.PacingLog
import WebrtcTrace.Congestion.RateConstraints
import WebrtcTrace.CsvLog.Conservation
import WebrtcTrace.Pacing.Budgets
import WebrtcTrace.Pacing.CongestionGate
import WebrtcTrace.Pacing.PacketLedger
import WebrtcTrace.Packets.ArrivalOrder
import WebrtcTrace.Packets.Clearing
import WebrtcTrace.Packets.PacketLog
import WebrtcTrace.Packets.Padding
import WebrtcTrace.Packets.ReturnedFrames
import WebrtcTrace.Rtp.SendCounters
import WebrtcTrace.Sending.AllocationThrottle
import WebrtcTrace.Sending.Registration
import WebrtcTrace.TraceTools.ByteAccounting
import WebrtcTrace.TraceTools.CarriedJitter
import WebrtcTrace.TraceTools.ClockInvariance
import WebrtcTrace.TraceTools.Coalescing
import WebrtcTrace.TraceTools.DelayTracking
import WebrtcTrace.TraceTools.Episodes
import WebrtcTrace.TraceTools.FreezeAnalysis
import WebrtcTrace.TraceTools.FreezeNotes
import WebrtcTrace.TraceTools.GapWindows
import WebrtcTrace.TraceTools.PercentileLaws
import WebrtcTrace.TraceTools.RateCap
import WebrtcTrace.TraceTools.RecordedPackets
import WebrtcTrace.TraceTools.ReplayRun
import WebrtcTrace.TraceTools.Replayable
import WebrtcTrace.TraceTools.ReplayedWindows
import WebrtcTrace.Video.ContinuityHistory
import WebrtcTrace.Video.DropStatistics
import WebrtcTrace.Video.FrameLedger
import WebrtcTrace.Video.KeyframeGate
import WebrtcTrace.Video.LoopBounds
import WebrtcTrace.Video.PlayableUnits
import WebrtcTrace.Video.Rejections
import WebrtcTrace.Video.Scheduling
import WebrtcTrace.Video.Stream
import WebrtcTrace.Video.StreamRecording
