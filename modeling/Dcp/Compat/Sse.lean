import Dcp.Library.Json.Codec
import Dcp.Library.Recent
import Dcp.Security.Redaction

/-!
The transport of server-sent events: the text of an event, the buffer of events that a client can
ask for again, and the replay of those after the last one the client saw. A poisoned lock, headers
and the queue of posted messages are not part of this model.
-/

namespace Dcp
open Library

inductive SseReplayError
  | staleEventId
  | futureEventId
  deriving DecidableEq

inductive SseEventType
  | message
  | endpoint
  | error
  | ping
  deriving DecidableEq

def SseEventType.asStr : SseEventType → String
  | message => "message"
  | endpoint => "endpoint"
  | error => "error"
  | ping => "ping"

/-- The text with its secrets taken out, as JSON if it is JSON. -/
def sanitizeReplayPayload (codec : JsonCodec) (json : String) : String :=
  match codec.fromStr json with
  | .error _ => sanitizeText json
  | .ok value =>
      if (sanitizeJsonValue value).same value then json
      else
        match codec.toText (sanitizeJsonValue value) with
        | .ok text => text
        | .error _ => sanitizeText json

/-- A field has one line. -/
def sanitizeSseField (value : String) : String :=
  String.ofList ((sanitizeText value).toList.map fun ch =>
    if ch = '\r' ∨ ch = '\n' then ' ' else ch)

def sanitizeSseData (codec : JsonCodec) (value : String) : String :=
  replaceText (replaceText (sanitizeReplayPayload codec value) "\r\n" "\n") "\r" "\n"

/-- The lines of a text; a line break at the end does not start another one, and a carriage return
before a line break belongs to it. -/
def lines (text : String) : List String :=
  let parts := text.toList.splitOn '\n'
  let ended := parts.dropLast.map fun line =>
    if line.getLast? = some '\r' then line.dropLast else line
  (ended ++ (parts.getLast?.filter fun line => line ≠ []).toList).map String.ofList

structure SseEvent where
  eventType : SseEventType
  data : String
  id : Option String
  retry : Option UInt32
  deriving DecidableEq

namespace SseEvent

def message (data : String) : SseEvent := ⟨.message, data, none, none⟩

def endpoint (url : String) : SseEvent := ⟨.endpoint, url, none, none⟩

def error (message : String) : SseEvent := ⟨.error, sanitizeText message, none, none⟩

def ping : SseEvent := ⟨.ping, "", none, none⟩

def withId (event : SseEvent) (id : String) : SseEvent :=
  { event with id := some (sanitizeSseField id) }

def withRetry (event : SseEvent) (retryMs : UInt32) : SseEvent :=
  { event with retry := some retryMs }

def line (text : String) : String := text ++ "\n"

/-- The event as it is sent. -/
def format (codec : JsonCodec) (event : SseEvent) : String :=
  let data := sanitizeSseData codec event.data
  let head := [line ("event: " ++ event.eventType.asStr)] ++
    (event.id.map fun id => line ("id: " ++ sanitizeSseField id)).toList ++
    (event.retry.map fun retry => line ("retry: " ++ toString retry.toNat)).toList
  let body := (lines data).map fun text => line ("data: " ++ text)
  String.join (head ++ body ++ (if data.isEmpty then [line "data:"] else []) ++ [line ""])

end SseEvent

structure BufferedEvent where
  id : UInt64
  formatted : String
  deriving DecidableEq

structure EventBuffer where
  events : List BufferedEvent
  maxSize : Nat

namespace EventBuffer

def new (maxSize : Nat) : EventBuffer := ⟨[], maxSize⟩

def push (buffer : EventBuffer) (id : UInt64) (formatted : String) : EventBuffer :=
  { buffer with events := Recent.push buffer.maxSize buffer.events ⟨id, formatted⟩ }

def eventsAfter (buffer : EventBuffer) (lastId : UInt64) : List String :=
  (buffer.events.filter fun e => e.id > lastId).map BufferedEvent.formatted

def latestId (buffer : EventBuffer) : Option UInt64 := buffer.events.getLast?.map BufferedEvent.id

def oldestId (buffer : EventBuffer) : Option UInt64 := buffer.events.head?.map BufferedEvent.id

end EventBuffer

structure SseTransport where
  eventCounter : UInt64
  defaultRetryMs : UInt32
  buffer : EventBuffer

namespace SseTransport

def withBufferSize (bufferSize : Nat) : SseTransport := ⟨0, 3000, .new bufferSize⟩

def withRetry (transport : SseTransport) (retryMs : UInt32) : SseTransport :=
  { transport with defaultRetryMs := retryMs }

def new : SseTransport := withBufferSize 100

/-- The next event id; the counter wraps. -/
def nextId (transport : SseTransport) : UInt64 × SseTransport :=
  (transport.eventCounter + 1, { transport with eventCounter := transport.eventCounter + 1 })

def pushEvent (transport : SseTransport) (id : UInt64) (formatted : String) : SseTransport :=
  { transport with buffer := transport.buffer.push id formatted }

/-- The message as it is sent. -/
def responseText (codec : JsonCodec) (retryMs : UInt32) (id : UInt64) (json : String) : String :=
  (((SseEvent.message json).withId (toString id.toNat)).withRetry retryMs).format codec

/-- The error as it is sent, and as it is sent again. -/
def errorText (codec : JsonCodec) (id : UInt64) (message : String) : String :=
  ((SseEvent.error (sanitizeText message)).withId (toString id.toNat)).format codec

/-- Format a response; a sanitized copy is kept for replay. -/
def formatResponse (codec : JsonCodec) (transport : SseTransport) (json : String) :
    String × SseTransport :=
  let (id, transport) := transport.nextId
  (responseText codec transport.defaultRetryMs id json, transport.pushEvent id
    (responseText codec transport.defaultRetryMs id (sanitizeReplayPayload codec json)))

def formatError (codec : JsonCodec) (transport : SseTransport) (message : String) :
    String × SseTransport :=
  let (id, transport) := transport.nextId
  (errorText codec id message, transport.pushEvent id (errorText codec id message))

/-- Format a ping, which has no id and is not kept. -/
def formatPing (codec : JsonCodec) : String := SseEvent.ping.format codec

/-- Format an endpoint event, which takes an id but is not kept. -/
def formatEndpoint (codec : JsonCodec) (transport : SseTransport) (url : String) :
    String × SseTransport :=
  let (id, transport) := transport.nextId
  (((SseEvent.endpoint (sanitizeText url)).withId (toString id.toNat)).format codec, transport)

def currentEventId (transport : SseTransport) : UInt64 := transport.eventCounter

def reset (transport : SseTransport) : SseTransport :=
  { transport with
    eventCounter := 0
    buffer := { transport.buffer with events := [] } }

/-- The events after a cursor, unless the buffer cannot tell. -/
def checkedReplayEvents (transport : SseTransport) (lastEventId : UInt64) :
    Except SseReplayError (List String) :=
  if transport.buffer.events.isEmpty then
    if lastEventId > transport.currentEventId then .error .futureEventId
    else if transport.currentEventId > 0 ∧ lastEventId < transport.currentEventId then
      .error .staleEventId
    else .ok []
  else if transport.buffer.latestId.any fun latest => lastEventId > latest then
    .error .futureEventId
  else if transport.buffer.oldestId.any fun oldest =>
      lastEventId.toNat < oldest.toNat - 1 then
    .error .staleEventId
  else .ok (transport.buffer.eventsAfter lastEventId)

/-- A cursor for which the replay is not refused. -/
def Answers (transport : SseTransport) (lastEventId : UInt64) : Prop :=
  (transport.buffer.events = [] ∧ lastEventId = transport.eventCounter) ∨
    ∃ oldest latest, transport.buffer.oldestId = some oldest ∧
      transport.buffer.latestId = some latest ∧
      oldest.toNat ≤ lastEventId.toNat + 1 ∧ lastEventId ≤ latest

theorem checkedReplayEvents_eq_ok_iff {transport : SseTransport} {lastEventId : UInt64}
    {events : List String} :
    transport.checkedReplayEvents lastEventId = .ok events ↔
      transport.Answers lastEventId ∧ transport.buffer.eventsAfter lastEventId = events := by
  obtain ⟨counter, retryMs, buffered, maxSize⟩ := transport
  simp only [checkedReplayEvents, Answers, currentEventId, EventBuffer.latestId,
    EventBuffer.oldestId]
  cases buffered with
  | nil =>
      have hzero : (0 : UInt64).toNat = 0 := rfl
      simp only [List.isEmpty_nil, if_true, EventBuffer.eventsAfter, List.filter_nil, List.map_nil,
        gt_iff_lt, UInt64.lt_iff_toNat_lt, ← UInt64.toNat_inj, hzero, List.head?_nil,
        Option.map_none, reduceCtorEq, false_and, exists_false, or_false, true_and]
      split
      · simp; omega
      · split
        · simp; omega
        · simp; omega
  | cons oldest rest =>
      have hlast := List.getLast?_eq_some_getLast (List.cons_ne_nil oldest rest)
      simp only [hlast, List.isEmpty_cons, Bool.false_eq_true, if_false, Option.map_some,
        Option.any_some, List.head?_cons, Option.some.injEq, reduceCtorEq, false_and, false_or,
        decide_eq_true_eq, gt_iff_lt, UInt64.le_iff_toNat_le, UInt64.lt_iff_toNat_lt]
      split
      · simp; omega
      · split
        · simp; omega
        · simp; omega

end SseTransport
end Dcp
