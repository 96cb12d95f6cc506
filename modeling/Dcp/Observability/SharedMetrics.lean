import Dcp.Library.Cells
import Dcp.Observability.CounterFamilies

/-!
Metrics that many threads record at the same time. A counter or a histogram is made when its label
is first seen, behind a lock that others may take in between, and each of its numbers is added to by
one atomic operation; so records overlap, also within one histogram, but none is lost.
-/

namespace Dcp.Observability
open Library

/-- The tables of the metrics, as one table by family and label. -/
inductive MetricKey
  | requests (method : String)
  | durations (method : String)
  | bytes (direction : String)
  | errors (errorType : String)
  deriving DecidableEq

inductive Metric
  | counter (value : UInt64)
  | histogram (histogram : Histogram)

/-- The atomic operations on counters, and on the sum, the count and the buckets of a histogram. -/
inductive MetricUpdate
  | add (amount : UInt64)
  | sum (micros : UInt64)
  | count
  | bucket (index : Nat)
  deriving DecidableEq

namespace Metric

def fresh (buckets : List UInt64) : MetricKey → Metric
  | .durations _ => histogram (.new buckets)
  | .requests _ | .bytes _ | .errors _ => counter 0

def apply : MetricUpdate → Metric → Metric
  | .add amount, counter value => counter (value + amount)
  | .sum micros, histogram h => histogram { h with sum := h.sum + micros }
  | .count, histogram h => histogram { h with count := h.count + 1 }
  | .bucket index, histogram h =>
      histogram { h with bucketCounts := h.bucketCounts.modify index (· + 1) }
  | _, metric => metric

end Metric

/-- The operations of `observe`, after that on the sum. -/
def observeUpdates (ops : FloatOps) (buckets : List UInt64) (value : UInt64) : List MetricUpdate :=
  .count ::
    ((buckets.zipIdx.filter fun (bound, _) => ops.le value bound).map Prod.snd).map .bucket

/-- What a record does, label after label. -/
def Call.jobs (ops : FloatOps) (buckets : List UInt64) :
    Call → List (CellJob MetricKey MetricUpdate)
  | request method duration =>
      let value := ops.ofDuration duration.secs duration.nanos
      [⟨.requests (sanitizeMetricLabel method), .add 1, []⟩,
        ⟨.durations (sanitizeMetricLabel method), .sum (ops.micros value),
          observeUpdates ops buckets value⟩]
  | error errorType => [⟨.errors (sanitizeMetricLabel errorType), .add 1, []⟩]
  | bytes direction amount => [⟨.bytes (sanitizeMetricLabel direction), .add amount, []⟩]

inductive MetricsStep
  | record (call : Call)
  | advance (index : Nat)

/-- A step on the tables. -/
def MetricsStep.toCells (ops : FloatOps) (buckets : List UInt64) :
    MetricsStep → CellStep MetricKey MetricUpdate
  | record call => .call (call.jobs ops buckets)
  | advance index => .advance index

namespace SharedMetrics

def run (ops : FloatOps) (buckets : List UInt64) (steps : List MetricsStep) :
    CellRun MetricKey MetricUpdate Metric :=
  CellRun.run (Metric.fresh buckets) Metric.apply (steps.map (MetricsStep.toCells ops buckets))

/-- The records that were begun, in order. -/
def recorded (steps : List MetricsStep) : List Call :=
  steps.filterMap fun
    | .record call => some call
    | .advance _ => none

end SharedMetrics

namespace PrometheusMetrics

/-- What the metrics show under a family and a label. -/
def metric (metrics : PrometheusMetrics) : MetricKey → Option Metric
  | .requests method => (metrics.requestsTotal.lookup method).map .counter
  | .durations method => (metrics.requestDurationSeconds.lookup method).map .histogram
  | .bytes direction => (metrics.bytesTotal.lookup direction).map .counter
  | .errors errorType => (metrics.errorsTotal.lookup errorType).map .counter

end PrometheusMetrics

namespace Metric

theorem add_add_comm (a b c : UInt64) : a + b + c = a + c + b := by
  rw [UInt64.add_assoc, UInt64.add_comm b, ← UInt64.add_assoc]

theorem modify_comm (counts : List UInt64) (i j : Nat) :
    (counts.modify i (· + 1)).modify j (· + 1) = (counts.modify j (· + 1)).modify i (· + 1) := by
  by_cases heq : i = j
  · rw [heq]
  · exact List.modify_modify_ne _ _ _ heq

theorem apply_comm (u v : MetricUpdate) (metric : Metric) :
    apply u (apply v metric) = apply v (apply u metric) := by
  cases metric with
  | counter value =>
      cases u <;> cases v <;> first
        | rfl
        | exact congrArg counter (add_add_comm value _ _)
  | histogram h =>
      cases u <;> cases v <;> first
        | rfl
        | exact congrArg (fun sum => histogram { h with sum }) (add_add_comm h.sum _ _)
        | exact congrArg (fun bucketCounts => histogram { h with bucketCounts })
            (modify_comm h.bucketCounts _ _)

end Metric

namespace Histogram

/-- The buckets that a value falls into, counted one by one. -/
theorem foldl_modify_zipIdx (p : UInt64 → Bool) (buckets front counts : List UInt64)
    (hlength : counts.length = buckets.length) :
    (((buckets.zipIdx front.length).filter fun (bound, _) => p bound).map Prod.snd).foldl
        (fun counts index => counts.modify index (· + 1)) (front ++ counts) =
      front ++ (buckets.zip counts).map fun (bound, counted) =>
        if p bound then counted + 1 else counted := by
  induction buckets generalizing front counts with
  | nil =>
      obtain rfl := List.length_eq_zero_iff.mp hlength
      rfl
  | cons bound buckets ih =>
      obtain _ | ⟨counted, counts⟩ := counts
      · cases hlength
      · have hnext := fun c => ih (front ++ [c]) counts (Nat.succ.inj hlength)
        simp only [List.length_append, List.length_singleton, List.append_assoc,
          List.singleton_append] at hnext
        rw [List.zipIdx_cons, List.filter_cons, List.zip_cons_cons, List.map_cons]
        cases hp : p bound with
        | false =>
            simp only [hp, Bool.false_eq_true, if_false]
            exact hnext counted
        | true =>
            simp only [hp, if_true, List.map_cons, List.foldl_cons]
            have hmodify : (front ++ counted :: counts).modify front.length (· + 1) =
                front ++ (counted + 1) :: counts := by
              clear hnext ih
              induction front with
              | nil => rfl
              | cons c front ih =>
                  rw [List.cons_append, List.length_cons, List.modify_succ_cons, ih,
                    List.cons_append]
            rw [hmodify]
            exact hnext (counted + 1)

theorem foldl_apply_bucket (h : Histogram) (indices : List Nat) :
    (indices.map MetricUpdate.bucket).foldl (fun metric u => Metric.apply u metric) (.histogram h) =
      .histogram { h with
        bucketCounts := indices.foldl (fun counts index => counts.modify index (· + 1))
          h.bucketCounts } := by
  induction indices generalizing h with
  | nil => rfl
  | cons index indices ih => exact ih _

/-- The operations of a record that nothing comes between are those of `observe`. -/
theorem foldl_observeUpdates (ops : FloatOps) (h : Histogram) (value : UInt64)
    (hlength : h.bucketCounts.length = h.buckets.length) :
    (MetricUpdate.sum (ops.micros value) :: observeUpdates ops h.buckets value).foldl
        (fun metric u => Metric.apply u metric) (.histogram h) =
      .histogram (h.observe ops value) := by
  have hcounts := foldl_modify_zipIdx (fun bound => ops.le value bound) h.buckets [] h.bucketCounts
    hlength
  rw [List.length_nil, List.nil_append, List.nil_append] at hcounts
  rw [observeUpdates, List.foldl_cons, List.foldl_cons, Metric.apply, Metric.apply,
    foldl_apply_bucket, hcounts]
  rfl

end Histogram

namespace SharedMetrics
variable (ops : FloatOps) (buckets : List UInt64)

/-- All updates of some records. -/
def entries (calls : List Call) : List (MetricKey × MetricUpdate) :=
  calls.flatMap fun call => (call.jobs ops buckets).flatMap CellJob.entries

theorem requested_run (steps : List MetricsStep) :
    (run ops buckets steps).requested = entries ops buckets (recorded steps) := by
  rw [run, CellRun.requested_run, List.flatMap_map]
  induction steps with
  | nil => rfl
  | cons input steps ih =>
      rw [List.flatMap_cons, ih]
      cases input <;> rfl

/-- The metrics of a single thread show the updates of the records, in order. -/
structure Follows (metrics : PrometheusMetrics) (calls : List Call) : Prop where
  bounds : metrics.histogramBuckets = buckets
  shape : ∀ method h, metrics.requestDurationSeconds.lookup method = some h →
    h.buckets = buckets ∧ h.bucketCounts.length = buckets.length
  shows : ∀ key, metrics.metric key =
    Cells.shown (Metric.fresh buckets) Metric.apply (entries ops buckets calls) key

theorem map_lookup_count (t : LabeledCounter) (label key : String) (amount : UInt64) :
    ((Table.count t (label, amount)).lookup key).map Metric.counter =
      if label = key then
        some (Metric.apply (.add amount) (((t.lookup key).map Metric.counter).getD (.counter 0)))
      else (t.lookup key).map Metric.counter := by
  rw [Table.count, Table.lookup_insert_eq]
  by_cases heq : label = key
  · subst heq
    cases t.lookup label <;> simp [Metric.apply]
  · simp [heq, Ne.symm heq]

variable {ops buckets} {metrics : PrometheusMetrics} {calls : List Call}

theorem entries_concat (call : Call) :
    entries ops buckets (calls ++ [call]) =
      entries ops buckets calls ++ (call.jobs ops buckets).flatMap CellJob.entries := by
  simp [entries]

/-- The histogram of a label has the buckets of the metrics. -/
theorem Follows.histogram (h : Follows ops buckets metrics calls) (method : String) :
    (metrics.histogram method).buckets = buckets ∧
      (metrics.histogram method).bucketCounts.length = buckets.length := by
  rw [PrometheusMetrics.histogram, h.bounds]
  cases hlookup : metrics.requestDurationSeconds.lookup method with
  | none => exact ⟨rfl, List.length_map _⟩
  | some histogram => exact h.shape method histogram hlookup

/-- The operations of a request on the histogram of its label. -/
theorem Follows.observed (h : Follows ops buckets metrics calls) (label : String)
    (value : UInt64) :
    (MetricUpdate.sum (ops.micros value) :: observeUpdates ops buckets value).foldl
        (fun metric u => Metric.apply u metric)
        ((metrics.metric (.durations label)).getD (.histogram (.new buckets))) =
      .histogram ((metrics.histogram label).observe ops value) := by
  obtain ⟨hbounds, hlength⟩ := h.histogram label
  have hshown : (metrics.metric (.durations label)).getD (.histogram (.new buckets)) =
      .histogram (metrics.histogram label) := by
    rw [PrometheusMetrics.metric, PrometheusMetrics.histogram, h.bounds]
    cases metrics.requestDurationSeconds.lookup label <;> rfl
  have hobserved := Histogram.foldl_observeUpdates ops (metrics.histogram label) value
    (hlength.trans (by rw [hbounds]))
  rw [hbounds] at hobserved
  rw [hshown, hobserved]

theorem Follows.record (h : Follows ops buckets metrics calls) (call : Call) :
    Follows ops buckets (metrics.record ops call) (calls ++ [call]) := by
  cases call with
  | error errorType =>
      refine ⟨h.bounds, h.shape, fun key => ?_⟩
      rw [entries_concat, Call.jobs, List.flatMap_cons, List.flatMap_nil, List.append_nil,
        Cells.shown_job, ← h.shows]
      cases key with
      | errors label =>
          simp only [PrometheusMetrics.record, PrometheusMetrics.recordError,
            PrometheusMetrics.metric]
          rw [map_lookup_count]
          simp [CellJob.updates, Metric.fresh]
      | requests | durations | bytes => rfl
  | bytes direction amount =>
      refine ⟨h.bounds, h.shape, fun key => ?_⟩
      rw [entries_concat, Call.jobs, List.flatMap_cons, List.flatMap_nil, List.append_nil,
        Cells.shown_job, ← h.shows]
      cases key with
      | bytes label =>
          simp only [PrometheusMetrics.record, PrometheusMetrics.recordBytes,
            PrometheusMetrics.metric]
          rw [map_lookup_count]
          simp [CellJob.updates, Metric.fresh]
      | requests | durations | errors => rfl
  | request method duration =>
      obtain ⟨hbounds, hlength⟩ := h.histogram (sanitizeMetricLabel method)
      refine ⟨h.bounds, ?_, fun key => ?_⟩
      · intro label histogram hlookup
        change (AList.insert _ _ metrics.requestDurationSeconds).lookup label = _ at hlookup
        rw [Table.lookup_insert_eq] at hlookup
        split at hlookup
        · obtain rfl := Option.some.inj hlookup
          refine ⟨hbounds, ?_⟩
          rw [Histogram.observe, List.length_map, List.length_zip, hbounds, hlength, Nat.min_self]
        · exact h.shape label histogram hlookup
      · rw [entries_concat, Call.jobs, List.flatMap_cons, List.flatMap_cons, List.flatMap_nil,
          List.append_nil, ← List.append_assoc, Cells.shown_job, Cells.shown_job, ← h.shows]
        cases key with
        | requests label =>
            simp only [PrometheusMetrics.record, PrometheusMetrics.recordRequest,
              PrometheusMetrics.metric]
            rw [map_lookup_count]
            simp [CellJob.updates, Metric.fresh]
        | durations label =>
            simp only [PrometheusMetrics.record, PrometheusMetrics.recordRequest]
            rw [PrometheusMetrics.metric, Table.lookup_insert_eq]
            by_cases heq : sanitizeMetricLabel method = label
            · subst heq
              have hother : MetricKey.requests (sanitizeMetricLabel method) ≠
                  .durations (sanitizeMetricLabel method) := by
                intro heq
                cases heq
              rw [if_pos rfl, Option.map_some, if_pos rfl, if_neg hother]
              exact congrArg some (h.observed _ _).symm
            · simp [heq, Ne.symm heq, PrometheusMetrics.metric]
        | bytes | errors => rfl

theorem follows_run (calls : List Call) :
    Follows ops buckets (calls.foldl (PrometheusMetrics.record ops) (.new buckets)) calls := by
  induction calls using List.reverseRecOn with
  | nil =>
      refine ⟨rfl, ?_, ?_⟩
      · intro method h hlookup
        cases hlookup
      · intro key
        cases key <;> rfl
  | append_singleton calls call ih =>
      rw [List.foldl_append]
      exact ih.record call

/-- Records may overlap in any order: once none has anything left to do, the counters and the
histograms are those that one thread gets which makes the same records one after the other. -/
theorem records_add_up (ops : FloatOps) (buckets : List UInt64) (steps : List MetricsStep)
    (hdone : ∀ point ∈ (run ops buckets steps).calls, point.pending = []) (key : MetricKey) :
    (run ops buckets steps).cells.value key =
      ((recorded steps).foldl (PrometheusMetrics.record ops) (.new buckets)).metric key := by
  have hsettled := (CellRun.sound_run (steps.map (MetricsStep.toCells ops buckets))).settled
    Metric.apply_comm hdone key
  have hrequested := requested_run ops buckets steps
  rw [run] at hrequested ⊢
  rw [hsettled, hrequested]
  exact ((follows_run (recorded steps)).shows key).symm

/-- Two records of one error, both of which find that its counter is not there yet. -/
def racingErrors : List MetricsStep :=
  [.record (.error "closed"), .record (.error "closed"), .advance 0, .advance 1, .advance 1,
    .advance 1, .advance 0, .advance 0]

theorem records_add_up_racing :
    ((recorded racingErrors).foldl (PrometheusMetrics.record noFloats) (.new [])).metric
      (.errors "closed") = some (.counter 2) := by
  have hclosed : sanitizeMetricLabel "closed" = "closed" :=
    sanitizeText_plain (String.ofList_toList).symm (by decide)
  have hsteps : racingErrors.map (MetricsStep.toCells noFloats []) =
      [.call [⟨.errors "closed", .add 1, []⟩], .call [⟨.errors "closed", .add 1, []⟩],
        .advance 0, .advance 1, .advance 1, .advance 1, .advance 0, .advance 0] := by
    simp [racingErrors, MetricsStep.toCells, Call.jobs, hclosed]
  rw [← records_add_up noFloats [] racingErrors]
  · rw [run, hsteps]
    rfl
  · rw [run, hsteps]
    decide

end SharedMetrics

end Dcp.Observability
