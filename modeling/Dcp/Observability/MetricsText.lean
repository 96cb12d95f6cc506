import Dcp.Library.Exposition
import Dcp.Observability.Metrics
import Dcp.Security.RedactionLaws

/-!
Reading the text of the metrics back. Each piece that is written is some whole lines, whatever the
labels are; a counter is read with its label as it was recorded.
-/

namespace Dcp.Observability
open Library Library.Exposition

/-- The texts are written as whole lines, which are read so. -/
def Writes (texts : List String) (lines : List Line) : Prop :=
  ∃ parts, texts.flatMap String.toList = unlines '\n' parts ∧ List.Forall₂ Spells parts lines

theorem Writes.nil : Writes [] [] := ⟨[], rfl, .nil⟩

theorem Writes.append {texts texts' : List String} {lines lines' : List Line}
    (h : Writes texts lines) (h' : Writes texts' lines') :
    Writes (texts ++ texts') (lines ++ lines') := by
  obtain ⟨parts, htexts, hparts⟩ := h
  obtain ⟨parts', htexts', hparts'⟩ := h'
  refine ⟨parts ++ parts', ?_, List.rel_append hparts hparts'⟩
  rw [List.flatMap_append, htexts, htexts', unlines_append]

theorem Writes.cons {text : String} {texts : List String} {line : Line} {lines : List Line}
    (h : Writes [text] [line]) (h' : Writes texts lines) : Writes (text :: texts) (line :: lines) :=
  h.append h'

theorem Writes.flatMap {α : Type} {write : α → List String} {read : α → List Line} {items : List α}
    (h : ∀ item ∈ items, Writes (write item) (read item)) :
    Writes (items.flatMap write) (items.flatMap read) := by
  induction items with
  | nil => exact .nil
  | cons item rest ih =>
      obtain ⟨hitem, hrest⟩ := List.forall_mem_cons.mp h
      rw [List.flatMap_cons, List.flatMap_cons]
      exact hitem.append (ih hrest)

theorem Writes.map {α : Type} {write : α → String} {read : α → Line} {items : List α}
    (h : ∀ item ∈ items, Writes [write item] [read item]) :
    Writes (items.map write) (items.map read) := by
  rw [List.map_eq_flatMap, List.map_eq_flatMap]
  exact .flatMap h

theorem Writes.line {text : String} {part : List Char} {line : Line}
    (htext : text.toList = part ++ ['\n']) (h : Spells part line) : Writes [text] [line] := by
  refine ⟨[part], ?_, .cons h .nil⟩
  rw [List.flatMap_singleton, htext, unlines, List.flatMap_singleton]

theorem spells_comment {text : List Char} (h : '\n' ∉ text) :
    Spells ('#' :: text) (.comment text) := by
  refine ⟨?_, rfl⟩
  rw [List.mem_cons, not_or]
  exact ⟨by decide, h⟩

theorem Writes.comment {text : String} {comment : List Char}
    (htext : text.toList = '#' :: (comment ++ ['\n'])) (h : '\n' ∉ comment) :
    Writes [text] [.comment comment] :=
  .line (htext.trans rfl) (spells_comment h)

theorem Writes.blank_comment {text : String} {comment : List Char}
    (htext : text.toList = '\n' :: '#' :: (comment ++ ['\n'])) (h : '\n' ∉ comment) :
    Writes [text] [.blank, .comment comment] := by
  refine ⟨[[], '#' :: comment], ?_, .cons ⟨List.not_mem_nil, rfl⟩ (.cons (spells_comment h) .nil)⟩
  rw [List.flatMap_singleton, htext]
  simp [unlines]

theorem Writes.sample {text : String} {name value : List Char}
    {labels : List (List Char × List Char)}
    (htext : text.toList = sampleText name labels value ++ ['\n']) (hname : isName name = true)
    (hlabels : ∀ label ∈ labels, isLabelName label.1 = true) (hvalue : isValue value = true) :
    Writes [text] [.sample ⟨name, labels, value, []⟩] :=
  .line htext (spells_sampleText hname hlabels hvalue)

theorem prometheusLabelValue_eq (value : String) :
    (prometheusLabelValue value).toList = escape (sanitizeMetricLabel value).toList := by
  rw [prometheusLabelValue, replaceText, replaceText, replaceText]
  simp only [String.toList_ofList]
  exact replace_escape _

theorem toList_natText (n : Nat) : (toString n).toList = Nat.toDigits 10 n := by
  simp [toString, Nat.repr]

theorem isValue_toDigits (n : Nat) : isValue (Nat.toDigits 10 n) = true := by
  rw [isValue, Bool.and_eq_true, Bool.not_eq_true', List.isEmpty_eq_false_iff, List.all_eq_true]
  refine ⟨fun c hc => ?_, Nat.toDigits_ne_nil⟩
  have hdigit := Nat.isDigit_of_mem_toDigits (by decide) (by decide) hc
  rw [isValueChar, Char.isAlphanum, hdigit, Bool.or_true]
  rfl

theorem toList_labelLine {front : String} {name label : List Char}
    (hfront : front.toList = name ++ '\x7b' :: (label ++ ['=', '"'])) (value number : String) :
    (front ++ prometheusLabelValue value ++ "\"\x7d " ++ number ++ "\n").toList =
      sampleText name [(label, (sanitizeMetricLabel value).toList)] number.toList ++ ['\n'] := by
  simp [hfront, sampleText, labelText, labelsText, prometheusLabelValue_eq]

/-- What the line of a counter is read as. -/
def counterSample (name label : String) (entry : String × UInt64) : Line :=
  .sample ⟨name.toList, [(label.toList, (sanitizeMetricLabel entry.1).toList)],
    Nat.toDigits 10 entry.2.toNat, []⟩

theorem writes_counterLine {name label : String} (hname : isName name.toList = true)
    (hlabel : isLabelName label.toList = true) (entry : String × UInt64) :
    Writes [PrometheusMetrics.counterLine name label entry] [counterSample name label entry] := by
  have hfront : (name ++ "\x7b" ++ label ++ "=\"").toList =
      name.toList ++ '\x7b' :: (label.toList ++ ['=', '"']) := by simp
  have htext := toList_labelLine hfront entry.1 (toString entry.2.toNat)
  rw [toList_natText] at htext
  exact .sample htext hname (List.forall_mem_singleton.mpr hlabel) (isValue_toDigits _)

/-- What the display of a float gives is a number. -/
def FloatOps.DisplaysNumbers (ops : FloatOps) : Prop :=
  ∀ bits, isValue (ops.display bits).toList = true

namespace PrometheusMetrics

def bucketSample (method le : String) (count : UInt64) : Line :=
  .sample ⟨"dcp_request_duration_seconds_bucket".toList,
    [("method".toList, (sanitizeMetricLabel method).toList), ("le".toList, le.toList)],
    Nat.toDigits 10 count.toNat, []⟩

def histogramSamples (ops : FloatOps) (metrics : PrometheusMetrics) (label : String) : List Line :=
  let histogram := metrics.histogram label
  ((histogram.buckets.zip histogram.bucketCounts).map fun (bound, count) =>
    bucketSample label (ops.display bound) count) ++
  [bucketSample label "+Inf" histogram.count,
    .sample ⟨"dcp_request_duration_seconds_sum".toList,
      [("method".toList, (sanitizeMetricLabel label).toList)],
      (ops.display (ops.ofMicros histogram.sum)).toList, []⟩,
    .sample ⟨"dcp_request_duration_seconds_count".toList,
      [("method".toList, (sanitizeMetricLabel label).toList)],
      Nat.toDigits 10 histogram.count.toNat, []⟩]

/-- A number needs no escapes. -/
theorem escape_of_isValue {value : List Char} (h : isValue value = true) :
    escape value = value := by
  rw [isValue, Bool.and_eq_true] at h
  have hself : ∀ c ∈ value, escapeChar c = [c] := by
    intro c hc
    have hchar := List.all_eq_true.mp h.1 c hc
    have hne : c ≠ '\\' ∧ c ≠ '\n' ∧ c ≠ '"' := by
      refine ⟨?_, ?_, ?_⟩ <;> rintro rfl <;> exact absurd hchar (by decide)
    simp [escapeChar, hne]
  rw [escape, List.flatMap_congr hself, List.flatMap_singleton']

theorem isLabelName_method : isLabelName "method".toList = true := by decide

theorem isLabelName_le : isLabelName "le".toList = true := by decide

theorem isName_histogram : isName "dcp_request_duration_seconds_bucket".toList = true ∧
    isName "dcp_request_duration_seconds_sum".toList = true ∧
    isName "dcp_request_duration_seconds_count".toList = true := by decide +kernel

/-- The text in front of the method is the name of the metric and that of the label. -/
theorem front_histogram :
    "dcp_request_duration_seconds_bucket\x7bmethod=\"".toList =
      "dcp_request_duration_seconds_bucket".toList ++ '\x7b' :: ("method".toList ++ ['=', '"']) ∧
    "dcp_request_duration_seconds_sum\x7bmethod=\"".toList =
      "dcp_request_duration_seconds_sum".toList ++ '\x7b' :: ("method".toList ++ ['=', '"']) ∧
    "dcp_request_duration_seconds_count\x7bmethod=\"".toList =
      "dcp_request_duration_seconds_count".toList ++ '\x7b' :: ("method".toList ++ ['=', '"']) := by
  decide +kernel

theorem toList_bucketLine {front le : String} {name label : List Char}
    (hfront : front.toList = name ++ '\x7b' :: (label ++ ['=', '"']))
    (hle : isValue le.toList = true) (value number : String) :
    (front ++ prometheusLabelValue value ++ "\",le=\"" ++ le ++ "\"\x7d " ++ number ++
        "\n").toList =
      sampleText name [(label, (sanitizeMetricLabel value).toList), ("le".toList, le.toList)]
        number.toList ++ ['\n'] := by
  simp [hfront, sampleText, labelText, labelsText, prometheusLabelValue_eq, escape_of_isValue hle]

theorem writes_bucketLine (method : String) {le : String} (hle : isValue le.toList = true)
    (count : UInt64) :
    Writes [bucketLine (prometheusLabelValue method) le count] [bucketSample method le count] := by
  have htext := toList_bucketLine front_histogram.1 hle method (toString count.toNat)
  rw [toList_natText] at htext
  refine .sample htext isName_histogram.1 ?_ (isValue_toDigits _)
  rw [List.forall_mem_cons, List.forall_mem_singleton]
  exact ⟨isLabelName_method, isLabelName_le⟩

theorem writes_histogramText {ops : FloatOps} (hops : ops.DisplaysNumbers)
    (metrics : PrometheusMetrics) (label : String) :
    Writes (metrics.histogramText ops label) (metrics.histogramSamples ops label) := by
  have hmethod : ∀ l ∈ [("method".toList, (sanitizeMetricLabel label).toList)],
      isLabelName l.1 = true := List.forall_mem_singleton.mpr isLabelName_method
  have hcount := toList_labelLine front_histogram.2.2 label
    (toString (metrics.histogram label).count.toNat)
  rw [toList_natText] at hcount
  refine .append (.map fun bucket _ => writes_bucketLine label (hops bucket.1) bucket.2) ?_
  refine .cons (writes_bucketLine label (by decide) _) (.cons ?_ ?_)
  · exact .sample (toList_labelLine front_histogram.2.1 label _) isName_histogram.2.1 hmethod
      (hops _)
  · exact .sample hcount isName_histogram.2.2 hmethod (isValue_toDigits _)

/-- The lines of the metrics, each label as it was recorded. -/
def lines (ops : FloatOps) (order : MetricsOrder) (metrics : PrometheusMetrics) : List Line :=
  [.comment " HELP dcp_requests_total Total number of requests by method".toList,
    .comment " TYPE dcp_requests_total counter".toList] ++
  (order.requests.arrange metrics.requestsTotal.toPairs).map
    (counterSample "dcp_requests_total" "method") ++
  [.blank, .comment " HELP dcp_request_duration_seconds Request latency in seconds".toList,
    .comment " TYPE dcp_request_duration_seconds histogram".toList] ++
  (order.histograms.arrange metrics.requestDurationSeconds.keys).flatMap
    (metrics.histogramSamples ops) ++
  [.blank, .comment " HELP dcp_active_connections Number of active connections".toList,
    .comment " TYPE dcp_active_connections gauge".toList,
    .sample ⟨"dcp_active_connections".toList, [], Nat.toDigits 10 metrics.activeConnections.toNat,
      []⟩] ++
  [.blank, .comment " HELP dcp_bytes_total Total bytes transferred".toList,
    .comment " TYPE dcp_bytes_total counter".toList] ++
  (order.bytes.arrange metrics.bytesTotal.toPairs).map
    (counterSample "dcp_bytes_total" "direction") ++
  [.blank, .comment " HELP dcp_errors_total Total number of errors by type".toList,
    .comment " TYPE dcp_errors_total counter".toList] ++
  (order.errors.arrange metrics.errorsTotal.toPairs).map (counterSample "dcp_errors_total" "type")

theorem writes_activeConnections (n : Nat) :
    Writes ["dcp_active_connections " ++ toString n ++ "\n"]
      [.sample ⟨"dcp_active_connections".toList, [], Nat.toDigits 10 n, []⟩] := by
  have hfront : "dcp_active_connections ".toList = "dcp_active_connections".toList ++ [' '] := by
    decide +kernel
  refine .sample ?_ (by decide +kernel) (List.forall_mem_nil _) (isValue_toDigits n)
  rw [String.toList_append, String.toList_append, hfront, toList_natText, sampleText]
  simp

theorem writes_header {first second : String} (help type : String)
    (hfirst : first.toList = '#' :: (help.toList ++ ['\n']))
    (hsecond : second.toList = '#' :: (type.toList ++ ['\n']))
    (hhelp : '\n' ∉ help.toList) (htype : '\n' ∉ type.toList) :
    Writes [first, second] [.comment help.toList, .comment type.toList] :=
  .cons (.comment hfirst hhelp) (.comment hsecond htype)

theorem writes_blank_header {first second : String} (help type : String)
    (hfirst : first.toList = '\n' :: '#' :: (help.toList ++ ['\n']))
    (hsecond : second.toList = '#' :: (type.toList ++ ['\n']))
    (hhelp : '\n' ∉ help.toList) (htype : '\n' ∉ type.toList) :
    Writes [first, second] [.blank, .comment help.toList, .comment type.toList] :=
  (Writes.blank_comment hfirst hhelp).append (.comment hsecond htype)

theorem isName_counters : isName "dcp_requests_total".toList = true ∧
    isName "dcp_bytes_total".toList = true ∧ isName "dcp_errors_total".toList = true := by
  decide +kernel

theorem isLabelName_counters : isLabelName "method".toList = true ∧
    isLabelName "direction".toList = true ∧ isLabelName "type".toList = true := by
  decide +kernel

theorem writes_output {ops : FloatOps} (hops : ops.DisplaysNumbers) (order : MetricsOrder)
    (metrics : PrometheusMetrics) :
    Writes (metrics.output ops order) (metrics.lines ops order) := by
  refine .append (.append (.append (.append (.append (.append (.append (.append ?_ ?_) ?_) ?_)
    ?_) ?_) ?_) ?_) ?_
  · exact writes_header _ _ (by decide +kernel) (by decide +kernel) (by decide +kernel)
      (by decide +kernel)
  · exact .map fun entry _ => writes_counterLine isName_counters.1 isLabelName_counters.1 entry
  · exact writes_blank_header _ _ (by decide +kernel) (by decide +kernel) (by decide +kernel)
      (by decide +kernel)
  · exact .flatMap fun label _ => writes_histogramText hops metrics label
  · exact (writes_blank_header _ _ (by decide +kernel) (by decide +kernel) (by decide +kernel)
      (by decide +kernel)).append (writes_activeConnections _)
  · exact writes_blank_header _ _ (by decide +kernel) (by decide +kernel) (by decide +kernel)
      (by decide +kernel)
  · exact .map fun entry _ =>
      writes_counterLine isName_counters.2.1 isLabelName_counters.2.1 entry
  · exact writes_blank_header _ _ (by decide +kernel) (by decide +kernel) (by decide +kernel)
      (by decide +kernel)
  · exact .map fun entry _ =>
      writes_counterLine isName_counters.2.2 isLabelName_counters.2.2 entry

/-- The text of the metrics is read as their lines. -/
theorem readText_formatPrometheus {ops : FloatOps} (hops : ops.DisplaysNumbers)
    (order : MetricsOrder) (metrics : PrometheusMetrics) :
    readText (metrics.formatPrometheus ops order).toList = some (metrics.lines ops order) := by
  obtain ⟨parts, htexts, hparts⟩ := writes_output hops order metrics
  rw [formatPrometheus, String.toList_ofList, htexts, readText_unlines hparts]

end PrometheusMetrics

end Dcp.Observability
