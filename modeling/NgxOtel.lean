import NgxOtel.Lib.Run
import NgxOtel.Lib.Word
import NgxOtel.Lib.Cyclic
import NgxOtel.Lib.LinearProbe
import NgxOtel.Lib.PartitionPoint
import NgxOtel.Lib.Registry
import NgxOtel.Lib.Counters
import NgxOtel.Lib.Shards
import NgxOtel.Lib.Memory
import NgxOtel.Lib.Tiling
import NgxOtel.Lib.Wire
import NgxOtel.Lib.Decimal
import NgxOtel.Lib.WireRules
import NgxOtel.Lib.Delimiter
import NgxOtel.Lib.LinkedList
import NgxOtel.Lib.Calendar
import NgxOtel.DataModel
import NgxOtel.Ring.Model
import NgxOtel.Ring.Spsc
import NgxOtel.Ring.Calls
import NgxOtel.Coalesce.Table
import NgxOtel.Coalesce.StableCore
import NgxOtel.Coalesce.Runs
import NgxOtel.Coalesce.Interleaving
import NgxOtel.Coalesce.SlotView
import NgxOtel.Coalesce.Race
import NgxOtel.ErrorLog.Record
import NgxOtel.ErrorLog.LogChain
import NgxOtel.ErrorLog.Collect
import NgxOtel.ErrorLog.Accounting
import NgxOtel.Records.Access
import NgxOtel.Records.Span
import NgxOtel.Records.Malformed
import NgxOtel.Transport.FixDate
import NgxOtel.Transport.Endpoint
import NgxOtel.Drain.Backoff
import NgxOtel.Drain.Outcomes
import NgxOtel.Drain.RetryQueue
import NgxOtel.Drain.Graceful
import NgxOtel.Drain.Tick
import NgxOtel.Exporter.CrashWindow
import NgxOtel.Exporter.Liveness
import NgxOtel.Reload.Generations
import NgxOtel.Reload.Handover
import NgxOtel.Reload.Zones
import NgxOtel.Shm.Dimensions
import NgxOtel.Shm.Histogram
import NgxOtel.Shm.Snapshots
import NgxOtel.Shm.Zeroing
import NgxOtel.Shm.LogsZone
import NgxOtel.Metrics.Tables
import NgxOtel.Config.RouteTable
import NgxOtel.Metrics.Points
import NgxOtel.Metrics.Exemplars
import NgxOtel.Metrics.Requests
import NgxOtel.Config.LocationConf
import NgxOtel.Traces.Traceparent
import NgxOtel.Traces.Headers
import NgxOtel.Traces.SpanStart
import NgxOtel.Traces.Requests
import NgxOtel.Otlp.Common
import NgxOtel.Otlp.Logs
import NgxOtel.Otlp.Traces
import NgxOtel.Otlp.Metrics
import NgxOtel.Drain.Pdata
import NgxOtel.Drain.RingDrain
import NgxOtel.Drain.Pipeline
import NgxOtel.Drain.MetricsBatch
import NgxOtel.Drain.RequestMetrics
import NgxOtel.Transport.Responses
import NgxOtel.Transport.ConnIo
import NgxOtel.Transport.Wakeups
import NgxOtel.Config.Locations
