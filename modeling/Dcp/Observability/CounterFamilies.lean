import Dcp.Observability.MetricsText

/-!
The counters of the metrics after any calls, as a reader of their text finds them: one sample for
each label that was recorded, with the total recorded for it up to the wrap of the counter.
-/

namespace Dcp.Observability
open Library Library.Exposition

inductive CounterFamily
  | requests
  | bytes
  | errors
  deriving DecidableEq

namespace CounterFamily

def name : CounterFamily → String
  | .requests => "dcp_requests_total"
  | .bytes => "dcp_bytes_total"
  | .errors => "dcp_errors_total"

def labelName : CounterFamily → String
  | .requests => "method"
  | .bytes => "direction"
  | .errors => "type"

def counters (metrics : PrometheusMetrics) : CounterFamily → LabeledCounter
  | .requests => metrics.requestsTotal
  | .bytes => metrics.bytesTotal
  | .errors => metrics.errorsTotal

def order (order : MetricsOrder) : CounterFamily → Table.IterationOrder (String × UInt64)
  | .requests => order.requests
  | .bytes => order.bytes
  | .errors => order.errors

/-- The label that a call gives to a family, and the amount. -/
def given : CounterFamily → Call → List (String × UInt64)
  | .requests, .request method _ => [(method, 1)]
  | .bytes, .bytes direction amount => [(direction, amount)]
  | .errors, .error errorType => [(errorType, 1)]
  | _, _ => []

/-- What a call records in a family. -/
def recorded (family : CounterFamily) (call : Call) : List (String × UInt64) :=
  (family.given call).map fun entry => (sanitizeMetricLabel entry.1, entry.2)

/-- The distinct labels recorded in a family. -/
def labels (family : CounterFamily) (calls : List Call) : List String :=
  ((calls.flatMap family.recorded).map Prod.fst).dedup

/-- The total recorded for a label, without a bound. -/
def total (family : CounterFamily) (calls : List Call) (label : String) : Nat :=
  Table.total (calls.flatMap family.recorded) label

theorem counters_record (ops : FloatOps) (metrics : PrometheusMetrics) (family : CounterFamily)
    (call : Call) : family.counters (metrics.record ops call) =
      (family.recorded call).foldl Table.count (family.counters metrics) := by
  cases family <;> cases call <;> rfl

theorem counters_foldl_record (ops : FloatOps) (calls : List Call) (family : CounterFamily)
    (metrics : PrometheusMetrics) :
    family.counters (calls.foldl (PrometheusMetrics.record ops) metrics) =
      (calls.flatMap family.recorded).foldl Table.count (family.counters metrics) := by
  induction calls generalizing metrics with
  | nil => rfl
  | cons call rest ih =>
      rw [List.foldl_cons, ih, counters_record, List.flatMap_cons, List.foldl_append]

/-- A recorded label is sanitized already. -/
theorem sanitize_of_mem_labels {family : CounterFamily} {calls : List Call} {label : String}
    (h : label ∈ family.labels calls) : sanitizeMetricLabel label = label := by
  obtain ⟨entry, hentry, rfl⟩ := List.mem_map.mp (List.mem_dedup.mp h)
  obtain ⟨call, -, hcall⟩ := List.mem_flatMap.mp hentry
  obtain ⟨raw, -, rfl⟩ := List.mem_map.mp hcall
  exact sanitizeText_idem raw.1

end CounterFamily

def sampleNamed (name : List Char) : Line → Option Sample
  | .sample sample => if sample.name = name then some sample else none
  | .blank | .comment _ => none

/-- The samples of a metric in the order of their lines. -/
def samplesOf (name : String) (lines : List Line) : List Sample :=
  lines.filterMap (sampleNamed name.toList)

theorem samplesOf_append (name : String) (lines lines' : List Line) :
    samplesOf name (lines ++ lines') = samplesOf name lines ++ samplesOf name lines' :=
  List.filterMap_append

def labelSample (name label value : String) (amount : Nat) : Sample :=
  ⟨name.toList, [(label.toList, value.toList)], Nat.toDigits 10 amount, []⟩

theorem samplesOf_counters (name label : String) (entries : List (String × UInt64)) :
    samplesOf name (entries.map (counterSample name label)) = entries.map fun entry =>
      labelSample name label (sanitizeMetricLabel entry.1) entry.2.toNat := by
  rw [samplesOf, List.filterMap_map]
  exact List.filterMap_eq_map_iff_forall_eq_some.mpr fun entry _ => if_pos rfl

theorem samplesOf_other {name : String} {lines : List Line}
    (h : ∀ line ∈ lines, sampleNamed name.toList line = none) : samplesOf name lines = [] :=
  List.filterMap_eq_nil_iff.mpr h

theorem samplesOf_other_counters {name other : String} (h : other.toList ≠ name.toList)
    (label : String) (entries : List (String × UInt64)) :
    samplesOf name (entries.map (counterSample other label)) = [] := by
  refine samplesOf_other fun line hline => ?_
  obtain ⟨entry, -, rfl⟩ := List.mem_map.mp hline
  exact if_neg h

theorem samplesOf_histograms {name : String}
    (h : name.toList ∉ ["dcp_request_duration_seconds_bucket".toList,
      "dcp_request_duration_seconds_sum".toList, "dcp_request_duration_seconds_count".toList])
    (ops : FloatOps) (metrics : PrometheusMetrics) (methods : List String) :
    samplesOf name (methods.flatMap (metrics.histogramSamples ops)) = [] := by
  refine samplesOf_other fun line hline => ?_
  obtain ⟨method, -, hmethod⟩ := List.mem_flatMap.mp hline
  simp only [List.mem_cons, List.not_mem_nil, or_false, not_or] at h
  obtain ⟨hbucket, hsum, hcount⟩ := h
  rw [PrometheusMetrics.histogramSamples, List.mem_append] at hmethod
  rcases hmethod with hmem | hmem
  · obtain ⟨bucket, -, rfl⟩ := List.mem_map.mp hmem
    exact if_neg (Ne.symm hbucket)
  · simp only [List.mem_cons, List.not_mem_nil, or_false] at hmem
    rcases hmem with rfl | rfl | rfl
    · exact if_neg (Ne.symm hbucket)
    · exact if_neg (Ne.symm hsum)
    · exact if_neg (Ne.symm hcount)

theorem names_distinct (family : CounterFamily) :
    (∀ other : CounterFamily, other ≠ family → other.name.toList ≠ family.name.toList) ∧
      "dcp_active_connections".toList ≠ family.name.toList ∧
      family.name.toList ∉ ["dcp_request_duration_seconds_bucket".toList,
        "dcp_request_duration_seconds_sum".toList,
        "dcp_request_duration_seconds_count".toList] := by
  refine ⟨fun other hne => ?_, ?_, ?_⟩
  · cases family <;> cases other <;> first | exact absurd rfl hne | decide +kernel
  · cases family <;> decide +kernel
  · cases family <;> decide +kernel

/-- The samples of a family are the lines of its counters and no others. -/
theorem samplesOf_lines (ops : FloatOps) (order : MetricsOrder) (metrics : PrometheusMetrics)
    (family : CounterFamily) :
    samplesOf family.name (metrics.lines ops order) =
      ((family.order order).arrange (family.counters metrics).toPairs).map fun entry =>
        labelSample family.name family.labelName (sanitizeMetricLabel entry.1)
          entry.2.toNat := by
  obtain ⟨hother, hactive, hhistogram⟩ := names_distinct family
  have hheader : ∀ help type, samplesOf family.name [.comment help, .comment type] = [] :=
    fun _ _ => rfl
  have hblank : ∀ help type,
      samplesOf family.name [.blank, .comment help, .comment type] = [] := fun _ _ => rfl
  have hconnections : ∀ help type value, samplesOf family.name [.blank, .comment help,
      .comment type, .sample ⟨"dcp_active_connections".toList, [], value, []⟩] = [] := by
    intro help type value
    exact congrArg (fun sample : Option Sample => sample.toList) (if_neg hactive)
  have hfamily : ∀ other : CounterFamily,
      samplesOf family.name (((other.order order).arrange (other.counters metrics).toPairs).map
        (counterSample other.name other.labelName)) =
      if other = family then ((family.order order).arrange (family.counters metrics).toPairs).map
        fun entry => labelSample family.name family.labelName (sanitizeMetricLabel entry.1)
          entry.2.toNat
      else [] := by
    intro other
    split
    · next heq => rw [heq, samplesOf_counters]
    · next hne => exact samplesOf_other_counters (hother other hne) _ _
  have hrequests : samplesOf family.name ((order.requests.arrange
      metrics.requestsTotal.toPairs).map (counterSample "dcp_requests_total" "method")) = _ :=
    hfamily .requests
  have hbytes : samplesOf family.name ((order.bytes.arrange metrics.bytesTotal.toPairs).map
      (counterSample "dcp_bytes_total" "direction")) = _ := hfamily .bytes
  have herrors : samplesOf family.name ((order.errors.arrange metrics.errorsTotal.toPairs).map
      (counterSample "dcp_errors_total" "type")) = _ := hfamily .errors
  simp only [PrometheusMetrics.lines, samplesOf_append, hheader, hblank, hconnections,
    samplesOf_histograms hhistogram, hrequests, hbytes, herrors, List.nil_append, List.append_nil]
  cases family with
  | requests => rw [if_pos rfl, if_neg (by decide), if_neg (by decide), List.append_nil,
      List.append_nil]
  | bytes => rw [if_neg (by decide), if_pos rfl, if_neg (by decide), List.nil_append,
      List.append_nil]
  | errors => rw [if_neg (by decide), if_neg (by decide), if_pos rfl, List.nil_append,
      List.nil_append]

theorem samplesOf_family (ops : FloatOps) (order : MetricsOrder) (buckets : List UInt64)
    (calls : List Call) (family : CounterFamily) :
    (samplesOf family.name ((calls.foldl (PrometheusMetrics.record ops)
        (PrometheusMetrics.new buckets)).lines ops order)).Perm
      ((family.labels calls).map fun label =>
        labelSample family.name family.labelName label
          (family.total calls label % 18446744073709551616)) := by
  have hempty : family.counters (PrometheusMetrics.new buckets) = ∅ := by cases family <;> rfl
  have hpairs := Table.toPairs_foldl_count (calls.flatMap family.recorded)
  rw [samplesOf_lines, CounterFamily.counters_foldl_record, hempty]
  refine ((((family.order order).perm _).trans hpairs).map _).trans ?_
  rw [List.map_map]
  refine .of_eq (List.map_congr_left fun label hlabel => ?_)
  have hmem : label ∈ family.labels calls := hlabel
  have hsame := CounterFamily.sanitize_of_mem_labels hmem
  rw [Function.comp_apply, hsame, UInt64.toNat_ofNat']
  rfl

/-- The metrics after some calls. -/
def recordAll (ops : FloatOps) (buckets : List UInt64) (calls : List Call) : PrometheusMetrics :=
  calls.foldl (PrometheusMetrics.record ops) (PrometheusMetrics.new buckets)

/-- Whatever texts the labels are, the output is read as the lines that were meant, and each family
has one sample for each label, with the label as it was recorded and its total up to the wrap. -/
theorem formatPrometheus_exposes {ops : FloatOps} (hops : ops.DisplaysNumbers)
    (order : MetricsOrder) (buckets : List UInt64) (calls : List Call) :
    readText ((recordAll ops buckets calls).formatPrometheus ops order).toList =
        some ((recordAll ops buckets calls).lines ops order) ∧
      ∀ family : CounterFamily,
        (samplesOf family.name ((recordAll ops buckets calls).lines ops order)).Perm
          ((family.labels calls).map fun label =>
            labelSample family.name family.labelName label
              (family.total calls label % 18446744073709551616)) :=
  ⟨PrometheusMetrics.readText_formatPrometheus hops order _,
    samplesOf_family ops order buckets calls⟩

/-- Operations for metrics without histograms. -/
def noFloats : FloatOps := ⟨fun _ _ => false, id, id, fun _ _ => 0, fun _ => "0"⟩

theorem noFloats_displaysNumbers : noFloats.DisplaysNumbers := by
  have hzero : isValue "0".toList = true := by decide
  exact fun _ => hzero

def plainOrder : MetricsOrder :=
  ⟨⟨id, Table.perm_id⟩, ⟨id, Table.perm_id⟩, ⟨id, Table.perm_id⟩, ⟨id, Table.perm_id⟩⟩

theorem formatPrometheus_exposes_quoted :
    readText ((recordAll noFloats [] [.error "a\"\x7d 1\nforged 2"]).formatPrometheus noFloats
      plainOrder).toList =
      some ((recordAll noFloats [] [.error "a\"\x7d 1\nforged 2"]).lines noFloats plainOrder) :=
  (formatPrometheus_exposes noFloats_displaysNumbers plainOrder []
    [.error "a\"\x7d 1\nforged 2"]).1

def wrappingCalls : List Call := [.bytes "in" 18446744073709551615, .bytes "in" 1]

/-- A counter wraps: one more byte than it can hold is shown as none. -/
theorem wrappingCalls_exposed :
    (∃ lines, readText ((recordAll noFloats [] wrappingCalls).formatPrometheus noFloats
        plainOrder).toList = some lines ∧
      samplesOf "dcp_bytes_total" lines =
        [labelSample "dcp_bytes_total" "direction" "in" 0]) ∧
    CounterFamily.bytes.total wrappingCalls "in" = 18446744073709551616 := by
  have hin : sanitizeMetricLabel "in" = "in" :=
    sanitizeText_plain (String.ofList_toList).symm (by decide)
  have hrecorded : wrappingCalls.flatMap CounterFamily.bytes.recorded =
      [("in", 18446744073709551615), ("in", 1)] := by
    simp [wrappingCalls, CounterFamily.recorded, CounterFamily.given, hin]
  have htotal : CounterFamily.bytes.total wrappingCalls "in" = 18446744073709551616 := by
    rw [CounterFamily.total, hrecorded]
    decide
  have hlabels : CounterFamily.bytes.labels wrappingCalls = ["in"] := by
    rw [CounterFamily.labels, hrecorded]
    decide
  refine ⟨⟨_, PrometheusMetrics.readText_formatPrometheus noFloats_displaysNumbers plainOrder _,
    ?_⟩, htotal⟩
  have hsamples := samplesOf_family noFloats plainOrder [] wrappingCalls .bytes
  rw [hlabels, List.map_singleton, htotal] at hsamples
  exact List.perm_singleton.mp hsamples

end Dcp.Observability
