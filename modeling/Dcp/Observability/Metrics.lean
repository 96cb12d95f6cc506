import Dcp.Library.Tally
import Dcp.Security.Redaction

/-!
Metrics of the server and their text. Labels are sanitized when they are recorded and again, with
their quotes, backslashes and line feeds escaped, when they are written. The arithmetic of floats
and what a float is written as are parameters.
-/

namespace Dcp.Observability
open Library

/-- The operations on floats, which are given by their bits. -/
structure FloatOps where
  le : UInt64 → UInt64 → Bool
  /-- A number of seconds in microseconds, as an integer. -/
  micros : UInt64 → UInt64
  /-- An integer number of microseconds in seconds. -/
  ofMicros : UInt64 → UInt64
  /-- A duration of seconds and nanoseconds in seconds. -/
  ofDuration : UInt64 → UInt32 → UInt64
  display : UInt64 → String

structure Duration where
  secs : UInt64
  nanos : UInt32

def sanitizeMetricLabel (value : String) : String := sanitizeText value

def prometheusLabelValue (value : String) : String :=
  replaceText (replaceText (replaceText (sanitizeMetricLabel value) "\\" "\\\\") "\n" "\\n")
    "\"" "\\\""

/-- A counter for each label. -/
abbrev LabeledCounter := Table String UInt64

structure Histogram where
  buckets : List UInt64
  bucketCounts : List UInt64
  sum : UInt64
  count : UInt64

namespace Histogram

def new (buckets : List UInt64) : Histogram := ⟨buckets, buckets.map fun _ => 0, 0, 0⟩

def observe (ops : FloatOps) (histogram : Histogram) (value : UInt64) : Histogram :=
  { histogram with
    sum := histogram.sum + ops.micros value
    count := histogram.count + 1
    bucketCounts := (histogram.buckets.zip histogram.bucketCounts).map fun (bound, counted) =>
      if ops.le value bound then counted + 1 else counted }

end Histogram

structure PrometheusMetrics where
  requestsTotal : LabeledCounter
  requestDurationSeconds : Table String Histogram
  activeConnections : UInt64
  bytesTotal : LabeledCounter
  errorsTotal : LabeledCounter
  histogramBuckets : List UInt64

/-- A call that records something. -/
inductive Call
  | request (method : String) (duration : Duration)
  | error (errorType : String)
  | bytes (direction : String) (bytes : UInt64)

/-- The orders in which the maps of the metrics are iterated. -/
structure MetricsOrder where
  requests : Table.IterationOrder (String × UInt64)
  histograms : Table.IterationOrder String
  bytes : Table.IterationOrder (String × UInt64)
  errors : Table.IterationOrder (String × UInt64)

namespace PrometheusMetrics

def new (histogramBuckets : List UInt64) : PrometheusMetrics :=
  ⟨∅, ∅, 0, ∅, ∅, histogramBuckets⟩

/-- Get or create the histogram of a label. -/
def histogram (metrics : PrometheusMetrics) (label : String) : Histogram :=
  (metrics.requestDurationSeconds.lookup label).getD (Histogram.new metrics.histogramBuckets)

def recordRequest (ops : FloatOps) (metrics : PrometheusMetrics) (method : String)
    (duration : Duration) : PrometheusMetrics :=
  let method := sanitizeMetricLabel method
  { metrics with
    requestsTotal := Table.count metrics.requestsTotal (method, 1)
    requestDurationSeconds := metrics.requestDurationSeconds.insert method
      ((metrics.histogram method).observe ops (ops.ofDuration duration.secs duration.nanos)) }

def recordError (metrics : PrometheusMetrics) (errorType : String) : PrometheusMetrics :=
  { metrics with errorsTotal := Table.count metrics.errorsTotal (sanitizeMetricLabel errorType, 1) }

def recordBytes (metrics : PrometheusMetrics) (direction : String) (bytes : UInt64) :
    PrometheusMetrics :=
  { metrics with
    bytesTotal := Table.count metrics.bytesTotal (sanitizeMetricLabel direction, bytes) }

def record (ops : FloatOps) (metrics : PrometheusMetrics) : Call → PrometheusMetrics
  | .request method duration => metrics.recordRequest ops method duration
  | .error errorType => metrics.recordError errorType
  | .bytes direction bytes => metrics.recordBytes direction bytes

def counterLine (name label : String) (entry : String × UInt64) : String :=
  name ++ "\x7b" ++ label ++ "=\"" ++ prometheusLabelValue entry.1 ++ "\"\x7d " ++
    toString entry.2.toNat ++ "\n"

def bucketLine (method le : String) (count : UInt64) : String :=
  "dcp_request_duration_seconds_bucket\x7bmethod=\"" ++ method ++ "\",le=\"" ++ le ++ "\"\x7d " ++
    toString count.toNat ++ "\n"

def histogramText (ops : FloatOps) (metrics : PrometheusMetrics) (label : String) : List String :=
  let histogram := metrics.histogram label
  let method := prometheusLabelValue label
  ((histogram.buckets.zip histogram.bucketCounts).map fun (bound, count) =>
    bucketLine method (ops.display bound) count) ++
  [bucketLine method "+Inf" histogram.count,
    "dcp_request_duration_seconds_sum\x7bmethod=\"" ++ method ++ "\"\x7d " ++
      ops.display (ops.ofMicros histogram.sum) ++ "\n",
    "dcp_request_duration_seconds_count\x7bmethod=\"" ++ method ++ "\"\x7d " ++
      toString histogram.count.toNat ++ "\n"]

/-- What is pushed to the output, piece by piece. -/
def output (ops : FloatOps) (order : MetricsOrder) (metrics : PrometheusMetrics) : List String :=
  ["# HELP dcp_requests_total Total number of requests by method\n",
    "# TYPE dcp_requests_total counter\n"] ++
  (order.requests.arrange metrics.requestsTotal.toPairs).map
    (counterLine "dcp_requests_total" "method") ++
  ["\n# HELP dcp_request_duration_seconds Request latency in seconds\n",
    "# TYPE dcp_request_duration_seconds histogram\n"] ++
  (order.histograms.arrange metrics.requestDurationSeconds.keys).flatMap
    (metrics.histogramText ops) ++
  ["\n# HELP dcp_active_connections Number of active connections\n",
    "# TYPE dcp_active_connections gauge\n",
    "dcp_active_connections " ++ toString metrics.activeConnections.toNat ++ "\n"] ++
  ["\n# HELP dcp_bytes_total Total bytes transferred\n", "# TYPE dcp_bytes_total counter\n"] ++
  (order.bytes.arrange metrics.bytesTotal.toPairs).map
    (counterLine "dcp_bytes_total" "direction") ++
  ["\n# HELP dcp_errors_total Total number of errors by type\n",
    "# TYPE dcp_errors_total counter\n"] ++
  (order.errors.arrange metrics.errorsTotal.toPairs).map (counterLine "dcp_errors_total" "type")

/-- Format metrics in Prometheus text format. -/
def formatPrometheus (ops : FloatOps) (order : MetricsOrder) (metrics : PrometheusMetrics) :
    String :=
  String.ofList ((metrics.output ops order).flatMap String.toList)

end PrometheusMetrics

end Dcp.Observability
