import Dcp.Compat.Sse

/-!
What a client is sent again. The transport is compared with a log that forgets nothing: the ids
given out and the events to be replayed, since the last reset. The buffer of the transport holds the
most recent events of the log. A replay that is answered is complete as long as no id is given out
twice; but a cursor is refused, although nothing was lost, when it stands on an id that an endpoint
event took at either end of the buffer.
-/

namespace Dcp
open Library

inductive SseCall
  | response (json : String)
  | error (message : String)
  | endpoint (url : String)
  | ping
  | reset

/-- The transport after a call. -/
def SseTransport.step (codec : JsonCodec) (transport : SseTransport) : SseCall → SseTransport
  | .response json => (transport.formatResponse codec json).2
  | .error message => (transport.formatError codec message).2
  | .endpoint url => (transport.formatEndpoint codec url).2
  | .ping => transport
  | .reset => transport.reset

/-- How many ids were given out and the message and error events in the form they are replayed. -/
structure EventLog where
  ids : Nat
  events : List BufferedEvent

namespace EventLog

def empty : EventLog := ⟨0, []⟩

/-- The id that is given out next. -/
def freshId (log : EventLog) : UInt64 := .ofNat (log.ids + 1)

def record (codec : JsonCodec) (retryMs : UInt32) (log : EventLog) : SseCall → EventLog
  | .response json => ⟨log.ids + 1, log.events ++ [⟨log.freshId,
      SseTransport.responseText codec retryMs log.freshId (sanitizeReplayPayload codec json)⟩]⟩
  | .error message => ⟨log.ids + 1, log.events ++ [⟨log.freshId,
      SseTransport.errorText codec log.freshId message⟩]⟩
  | .endpoint _ => ⟨log.ids + 1, log.events⟩
  | .ping => log
  | .reset => empty

/-- The transport with this buffer size and retry interval that keeps up with the log. -/
def transport (size : Nat) (retryMs : UInt32) (log : EventLog) : SseTransport where
  eventCounter := .ofNat log.ids
  defaultRetryMs := retryMs
  buffer := ⟨log.events.rtake size, size⟩

/-- The events that the buffer has given up. -/
def evicted (size : Nat) (log : EventLog) : List BufferedEvent :=
  log.events.take (log.events.length - size)

section
variable {codec : JsonCodec} {size : Nat} {retryMs : UInt32} {log : EventLog}

theorem nextId_transport :
    (log.transport size retryMs).nextId =
      (log.freshId, (⟨log.ids + 1, log.events⟩ : EventLog).transport size retryMs) := by
  have hnext : UInt64.ofNat log.ids + 1 = UInt64.ofNat (log.ids + 1) := (UInt64.ofNat_add _ _).symm
  simp only [SseTransport.nextId, transport, freshId, hnext]

theorem pushEvent_transport (id : UInt64) (formatted : String) :
    (log.transport size retryMs).pushEvent id formatted =
      (⟨log.ids, log.events ++ [⟨id, formatted⟩]⟩ : EventLog).transport size retryMs := by
  simp only [SseTransport.pushEvent, EventBuffer.push, transport, Recent.push_rtake]

/-- Every call keeps the transport up with the log. -/
theorem step_transport (call : SseCall) :
    (log.transport size retryMs).step codec call =
      (log.record codec retryMs call).transport size retryMs := by
  cases call with
  | response json =>
      simp only [SseTransport.step, SseTransport.formatResponse, nextId_transport,
        pushEvent_transport]
      rfl
  | error message =>
      simp only [SseTransport.step, SseTransport.formatError, nextId_transport,
        pushEvent_transport]
      rfl
  | endpoint url =>
      simp only [SseTransport.step, SseTransport.formatEndpoint, nextId_transport]
      rfl
  | ping => rfl
  | reset =>
      simp only [SseTransport.step, SseTransport.reset, record, empty, transport, List.rtake_nil]
      rfl

theorem run_transport (calls : List SseCall) :
    calls.foldl (SseTransport.step codec) (log.transport size retryMs) =
      (calls.foldl (record codec retryMs) log).transport size retryMs := by
  induction calls generalizing log with
  | nil => rfl
  | cons call calls ih => rw [List.foldl_cons, List.foldl_cons, step_transport, ih]

theorem start_transport (size : Nat) (retryMs : UInt32) :
    (SseTransport.withBufferSize size).withRetry retryMs = empty.transport size retryMs := by
  rw [transport, empty, List.rtake_nil]
  rfl

theorem run_start (calls : List SseCall) :
    calls.foldl (SseTransport.step codec) ((SseTransport.withBufferSize size).withRetry retryMs) =
      (calls.foldl (record codec retryMs) empty).transport size retryMs := by
  rw [start_transport, run_transport]

end

/-- Ids grow; this is so until the counter wraps. -/
structure Ordered (log : EventLog) : Prop where
  growing : log.events.Pairwise fun e f => e.id < f.id
  given : ∀ e ∈ log.events, e.id.toNat ≤ log.ids

namespace Ordered
variable {codec : JsonCodec} {size : Nat} {retryMs : UInt32} {log : EventLog}

theorem empty : EventLog.empty.Ordered :=
  ⟨List.Pairwise.nil, fun _ he => absurd he List.not_mem_nil⟩

theorem append (h : log.Ordered) (hids : log.ids + 1 < 2 ^ 64) (formatted : String) :
    (⟨log.ids + 1, log.events ++ [⟨log.freshId, formatted⟩]⟩ : EventLog).Ordered := by
  have hfresh : log.freshId.toNat = log.ids + 1 := UInt64.toNat_ofNat_of_lt' hids
  constructor
  · apply List.pairwise_append.2 ⟨h.growing, List.pairwise_singleton _ _, ?_⟩
    intro e he f hf
    rw [List.mem_singleton.1 hf, UInt64.lt_iff_toNat_lt, hfresh]
    exact Nat.lt_succ_of_le (h.given e he)
  · intro e he
    rcases List.mem_append.1 he with he | he
    · exact Nat.le_succ_of_le (h.given e he)
    · rw [List.mem_singleton.1 he]
      exact hfresh.le

theorem record (h : log.ids < 2 ^ 64 → log.Ordered) (call : SseCall)
    (hids : (log.record codec retryMs call).ids < 2 ^ 64) :
    (log.record codec retryMs call).Ordered := by
  cases call with
  | response json => exact (h (Nat.lt_of_succ_lt hids)).append hids _
  | error message => exact (h (Nat.lt_of_succ_lt hids)).append hids _
  | endpoint url =>
      have hlog := h (Nat.lt_of_succ_lt hids)
      exact ⟨hlog.growing, fun e he => Nat.le_succ_of_le (hlog.given e he)⟩
  | ping => exact h hids
  | reset => exact empty

theorem run (h : log.ids < 2 ^ 64 → log.Ordered) (calls : List SseCall)
    (hids : (calls.foldl (EventLog.record codec retryMs) log).ids < 2 ^ 64) :
    (calls.foldl (EventLog.record codec retryMs) log).Ordered := by
  induction calls generalizing log with
  | nil => exact h hids
  | cons call calls ih => exact ih (record h call) hids

/-- A cursor that is not refused is past all that the buffer has given up. -/
theorem evicted_le (h : log.Ordered) (hids : log.ids < 2 ^ 64) {c : UInt64}
    (hc : (log.transport size retryMs).Answers c) {e : BufferedEvent} (he : e ∈ log.evicted size) :
    e.id ≤ c := by
  rw [UInt64.le_iff_toNat_le]
  rcases hc with ⟨-, rfl⟩ | ⟨oldest, latest, holdest, -, hle, -⟩
  · have hcounter : (UInt64.ofNat log.ids).toNat = log.ids := UInt64.toNat_ofNat_of_lt' hids
    exact (h.given e (List.mem_of_mem_take he)).trans hcounter.ge
  · obtain ⟨kept, hkept, rfl⟩ := Option.map_eq_some_iff.1 holdest
    have hgrowing := h.growing
    rw [← Recent.take_append_rtake size log.events] at hgrowing
    have hlt := (List.pairwise_append.1 hgrowing).2.2 e he kept (List.mem_of_head? hkept)
    rw [UInt64.lt_iff_toNat_lt] at hlt
    omega

theorem eventsAfter (h : log.Ordered) (hids : log.ids < 2 ^ 64) {c : UInt64}
    (hc : (log.transport size retryMs).Answers c) :
    (log.transport size retryMs).buffer.eventsAfter c =
      (log.events.filter fun e => e.id > c).map BufferedEvent.formatted := by
  have hevicted : (log.evicted size).filter (fun e => e.id > c) = [] := by
    rw [List.filter_eq_nil_iff]
    intro e he hafter
    exact absurd (of_decide_eq_true hafter) (UInt64.not_lt.2 (h.evicted_le hids hc he))
  conv_rhs => rw [← Recent.take_append_rtake size log.events]
  rw [List.filter_append, ← evicted, hevicted, List.nil_append]
  rfl

end Ordered

/-- A replay that is answered holds every message and error event after the cursor, in order, as
long as no id was given out twice since the last reset. -/
theorem replay_complete (codec : JsonCodec) (size : Nat) (retryMs : UInt32) (calls : List SseCall)
    (c : UInt64) (events : List String)
    (hids : (calls.foldl (record codec retryMs) empty).ids < 2 ^ 64)
    (h : (calls.foldl (SseTransport.step codec)
      ((SseTransport.withBufferSize size).withRetry retryMs)).checkedReplayEvents c = .ok events) :
    events = ((calls.foldl (record codec retryMs) empty).events.filter fun e => e.id > c).map
      BufferedEvent.formatted := by
  have hordered := Ordered.run (fun _ => Ordered.empty) calls hids
  rw [run_start, SseTransport.checkedReplayEvents_eq_ok_iff] at h
  exact h.2.symm.trans (hordered.eventsAfter hids h.1)

/-- Four events that are kept and one that is not; a buffer of three has no room for the first. -/
def fiveCalls : List SseCall :=
  [.response "0", .endpoint "/", .error "late", .response "1", .response "2"]

/-- A client that has seen the third of the kept events. -/
theorem replay_complete_fiveCalls :
    ["event: message\nid: 5\nretry: 3000\ndata: 2\n\n"] =
      ((fiveCalls.foldl (record .reference 3000) empty).events.filter
        fun e => e.id > 4).map BufferedEvent.formatted :=
  replay_complete .reference 3 3000 fiveCalls 4 _ (by decide) (by decide +kernel)

/-- The log of a run that only sends one message over and over. -/
theorem record_replicate (codec : JsonCodec) (retryMs : UInt32) (json : String) (n : Nat) :
    (List.replicate n (.response json)).foldl (record codec retryMs) empty =
      ⟨n, (List.range n).map fun i => ⟨.ofNat (i + 1),
        SseTransport.responseText codec retryMs (.ofNat (i + 1))
          (sanitizeReplayPayload codec json)⟩⟩ := by
  induction n with
  | zero => rfl
  | succ n ih =>
      rw [List.replicate_succ', List.foldl_append, ih, List.range_succ, List.map_append]
      rfl

/-- When the counter has wrapped, the events before are missing and nothing tells. -/
theorem replay_incomplete :
    ¬ ∀ (codec : JsonCodec) (size : Nat) (retryMs : UInt32) (calls : List SseCall) (c : UInt64)
      (events : List String),
      (calls.foldl (SseTransport.step codec)
        ((SseTransport.withBufferSize size).withRetry retryMs)).checkedReplayEvents c =
          .ok events →
      events = ((calls.foldl (record codec retryMs) empty).events.filter fun e => e.id > c).map
        BufferedEvent.formatted := by
  intro h
  have hwrapped : ∀ n, n + 1 = 2 ^ 64 → False := by
    intro n hn
    have hzero : UInt64.ofNat (n + 1) = 0 := by
      rw [hn]
      rfl
    have hlast := h .reference 1 3000 (List.replicate (n + 1) (.response "0")) 0 []
    rw [run_start, record_replicate, List.range_succ, List.map_append, List.map_singleton, hzero,
      SseTransport.checkedReplayEvents_eq_ok_iff] at hlast
    have hnone := hlast ?_
    · have hfirst := List.filter_eq_nil_iff.1 (List.map_eq_nil_iff.1 hnone.symm) _
        (List.mem_append_left _ (List.mem_map.2 ⟨0, List.mem_range.2 (by omega), rfl⟩))
      exact hfirst rfl
    · simp only [transport, SseTransport.Answers, EventBuffer.oldestId, EventBuffer.latestId,
        EventBuffer.eventsAfter, List.rtake_concat_succ, List.rtake_zero, List.nil_append]
      exact ⟨.inr ⟨0, 0, rfl, rfl, by decide, by decide⟩, rfl⟩
  exact hwrapped (2 ^ 64 - 1) (by decide)

/-- The client stands on the start or on an id that was given out, and saw all that the buffer has
given up. -/
structure UpToDate (log : EventLog) (size : Nat) (c : UInt64) : Prop where
  given : ∃ k ≤ log.ids, c = .ofNat k
  seen : ∀ e ∈ log.evicted size, e.id ≤ c

/-- The cursor is not before the oldest event that is kept, save by one, and not after the latest.
While there is no event it has to stand on the last id. -/
def Spans (log : EventLog) (size : Nat) (c : UInt64) : Prop :=
  (log.events = [] ∧ c = .ofNat log.ids) ∨
    ∃ oldest latest, (log.events.rtake size).head? = some oldest ∧
      log.events.getLast? = some latest ∧ oldest.id.toNat ≤ c.toNat + 1 ∧ c ≤ latest.id

theorem answers_iff_spans {size : Nat} {retryMs : UInt32} {log : EventLog} {c : UInt64}
    (hsize : 1 ≤ size) : (log.transport size retryMs).Answers c ↔ log.Spans size c := by
  have hempty : log.events.rtake size = [] ↔ log.events = [] :=
    Recent.rtake_eq_nil_iff.trans (or_iff_right (Nat.ne_of_gt hsize))
  simp only [SseTransport.Answers, Spans, transport, EventBuffer.oldestId, EventBuffer.latestId,
    hempty, Recent.getLast?_rtake hsize, Option.map_eq_some_iff]
  constructor
  · rintro (h | ⟨-, -, ⟨oldest, holdest, rfl⟩, ⟨latest, hlatest, rfl⟩, h⟩)
    · exact .inl h
    · exact .inr ⟨oldest, latest, holdest, hlatest, h⟩
  · rintro (h | ⟨oldest, latest, holdest, hlatest, h⟩)
    · exact .inl h
    · exact .inr ⟨_, _, ⟨oldest, holdest, rfl⟩, ⟨latest, hlatest, rfl⟩, h⟩

/-- A client that is up to date can resume exactly if its cursor does not stand on the id of an
endpoint event at either end of the buffer. -/
theorem resumes_iff (codec : JsonCodec) (size : Nat) (retryMs : UInt32) (calls : List SseCall)
    (c : UInt64) (hsize : 1 ≤ size) :
    let transport := calls.foldl (SseTransport.step codec)
      ((SseTransport.withBufferSize size).withRetry retryMs)
    let log := calls.foldl (record codec retryMs) empty
    (log.UpToDate size c → ∃ events, transport.checkedReplayEvents c = .ok events) ↔
      (log.UpToDate size c → log.Spans size c) := by
  simp only [run_start, SseTransport.checkedReplayEvents_eq_ok_iff, answers_iff_spans hsize,
    exists_and_left, exists_eq', and_true]

theorem resumes_iff_fiveCalls :
    ∃ events, (fiveCalls.foldl (SseTransport.step .reference)
      ((SseTransport.withBufferSize 3).withRetry 3000)).checkedReplayEvents 4 = .ok events := by
  refine (resumes_iff .reference 3 3000 fiveCalls 4 (by decide)).2 (fun _ => ?_) ?_
  · exact .inr ⟨_, _, rfl, rfl, by decide, by decide⟩
  · have hevicted : ∀ e ∈ (fiveCalls.foldl (record .reference 3000) empty).evicted 3,
        e.id ≤ 4 := by
      decide +kernel
    exact ⟨⟨4, by decide, rfl⟩, hevicted⟩

/-- An endpoint event after the last message: the client that saw both is refused. -/
theorem refused_up_to_date :
    ¬ ∀ (codec : JsonCodec) (size : Nat) (retryMs : UInt32) (calls : List SseCall) (c : UInt64),
      1 ≤ size → .reset ∉ calls →
      (calls.foldl (record codec retryMs) empty).UpToDate size c →
      ∃ events, (calls.foldl (SseTransport.step codec)
        ((SseTransport.withBufferSize size).withRetry retryMs)).checkedReplayEvents c =
          .ok events := by
  intro h
  have hlast := h .reference 1 3000 [.response "0", .endpoint "/"] 2 (by decide) (by simp)
    ⟨⟨2, by decide, rfl⟩, fun _ he => absurd he List.not_mem_nil⟩
  obtain ⟨events, hevents⟩ := hlast
  cases hevents

end EventLog
end Dcp
