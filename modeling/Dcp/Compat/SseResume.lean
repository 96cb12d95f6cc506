import Dcp.Compat.SseBlocks
import Dcp.Compat.SseReplay
import Dcp.Library.Run

/-!
A client of the event stream that comes back. The connection may break off anywhere in the text; the
client keeps the events that came through and the last id among them, and resumes from there. As
browsers do, it keeps its id when a new connection begins, until an event brings another one. What
it received is what the transport sent from the connection on that it made last without an id: every
message and every error once, in order and under its id.
-/

namespace Dcp
open Library

/-- What the transport sends for a call. -/
def SseTransport.sent (codec : JsonCodec) (transport : SseTransport) : SseCall → String
  | .response json => (transport.formatResponse codec json).1
  | .error message => (transport.formatError codec message).1
  | .endpoint url => (transport.formatEndpoint codec url).1
  | .ping => SseTransport.formatPing codec
  | .reset => ""

structure SseSubscription where
  transport : SseTransport
  /-- What was sent on the connection, if there is one. -/
  body : Option String
  /-- The events that the client received on the connections before. -/
  received : List StreamEvent
  lastEventId : Option (List Char)
  /-- The calls of the server, and how many ids were given out when the client last came without an
  id. -/
  calls : List SseCall
  since : UInt64

namespace SseSubscription

def new (size : Nat) (retryMs : UInt32) : SseSubscription :=
  ⟨(SseTransport.withBufferSize size).withRetry retryMs, none, [], none, [], 0⟩

/-- The last id that an event came with; events without one leave the client its id. -/
def lastIdOf (lastEventId : Option (List Char)) (events : List StreamEvent) : Option (List Char) :=
  events.foldl (fun last event => if event.lastId = [] then last else some event.lastId) lastEventId

variable (codec : JsonCodec)

def emit (s : SseSubscription) (call : SseCall) : SseSubscription :=
  { s with
    transport := s.transport.step codec call
    body := s.body.map fun body => body ++ s.transport.sent codec call
    calls := s.calls ++ [call] }

/-- The connection is lost, and this is the text that came through. -/
def lose (s : SseSubscription) (text : List Char) : SseSubscription :=
  let events := (EventReader.read text).events
  { s with
    body := none
    received := s.received ++ events
    lastEventId := lastIdOf s.lastEventId events }

inductive Step (s : SseSubscription) : SseSubscription → Prop
  | emit {call : SseCall} (h : call ≠ .reset) : Step s (s.emit codec call)
  | lose {body : String} {text : List Char} (hbody : s.body = some body)
      (h : text <+: body.toList) : Step s (s.lose text)
  | connect (hbody : s.body = none) (hid : s.lastEventId = none) :
      Step s { s with body := some "", since := s.transport.eventCounter }
  | resume {header : List Char} {c : UInt64} {events : List String} (hbody : s.body = none)
      (hid : s.lastEventId = some header) (hparse : SseTransport.parseLastEventId header = some c)
      (h : s.transport.checkedReplayEvents c = .ok events) :
      Step s { s with body := some (String.join events) }

/-- The id to resume from, or the one given out last when the client came without an id. -/
def cursorOf (since : UInt64) : Option (List Char) → UInt64
  | none => since
  | some header => (SseTransport.parseLastEventId header).getD 0

def cursor (s : SseSubscription) : UInt64 := cursorOf s.since s.lastEventId

/-- What the server has recorded. -/
def log (retryMs : UInt32) (s : SseSubscription) : EventLog :=
  s.calls.foldl (EventLog.record codec retryMs) .empty

/-- The text is a copy of the event: the one sent when it happens, or the one that is kept. -/
def Copies (retryMs : UInt32) (e : BufferedEvent) (text : String) : Prop :=
  text = e.formatted ∨ ∃ json,
    e.formatted = SseTransport.responseText codec retryMs e.id (sanitizeReplayPayload codec json) ∧
      text = SseTransport.responseText codec retryMs e.id json

/-- The client received a copy of the event. -/
def Shows (retryMs : UInt32) (e : BufferedEvent) (event : StreamEvent) : Prop :=
  event.lastId = idText e.id ∧ ∃ text, Copies codec retryMs e text ∧
    (EventReader.read text.toList).events = [event]

/-- Messages and errors; the other events are not kept. -/
def isKept (event : StreamEvent) : Bool :=
  event.type = SseEventType.message.asStr.toList || event.type = SseEventType.error.asStr.toList

end SseSubscription

/-- An event with the number of its id. Only what is not kept can be without one. -/
structure SsePiece where
  event : SseEvent
  id : Option UInt64
  spells : event.id = id.map fun id => toString id.toNat
  numbered : event.eventType = .message ∨ event.eventType = .error → id.isSome

namespace SsePiece
variable (codec : JsonCodec)

theorem withId_id (event : SseEvent) (id : UInt64) :
    (event.withId (toString id.toNat)).id = some (toString id.toNat) := by
  rw [SseEvent.withId, sanitizeSseField_id]

def response (retryMs : UInt32) (id : UInt64) (json : String) : SsePiece where
  event := ((SseEvent.message json).withId (toString id.toNat)).withRetry retryMs
  id := some id
  spells := withId_id (.message json) id
  numbered _ := rfl

def error (id : UInt64) (message : String) : SsePiece where
  event := (SseEvent.error (sanitizeText message)).withId (toString id.toNat)
  id := some id
  spells := withId_id _ id
  numbered _ := rfl

theorem format_response (retryMs : UInt32) (id : UInt64) (json : String) :
    (response retryMs id json).event.format codec =
      SseTransport.responseText codec retryMs id json := by
  rw [SseTransport.responseText]
  rfl

theorem format_error (id : UInt64) (message : String) :
    (error id message).event.format codec = SseTransport.errorText codec id message := by
  rw [SseTransport.errorText]
  rfl

def endpoint (id : UInt64) (url : String) : SsePiece where
  event := (SseEvent.endpoint (sanitizeText url)).withId (toString id.toNat)
  id := some id
  spells := withId_id _ id
  numbered _ := rfl

def ping : SsePiece where
  event := .ping
  id := none
  spells := rfl
  numbered h := by rcases h with h | h <;> cases h

def isKept (piece : SsePiece) : Bool :=
  piece.event.eventType = .message || piece.event.eventType = .error

def block (piece : SsePiece) : EventBlock := piece.event.block codec

theorem blockId_eq (piece : SsePiece) : piece.event.blockId = piece.id.map idText := by
  rw [SseEvent.blockId, piece.spells]
  cases piece.id with
  | none => rfl
  | some id =>
      have hnull : '\x00' ∉ (toString id.toNat).toList := by
        intro hmem
        rw [toList_toString_id] at hmem
        have hdigit := isDigit_of_mem_idText id hmem
        exact absurd hdigit (by decide)
      rw [Option.map_some, Option.bind_some, sanitizeSseField_id, if_neg hnull, Option.map_some,
        toList_toString_id]

theorem block_id (piece : SsePiece) : (piece.block codec).id = piece.id.map idText :=
  piece.blockId_eq

theorem read_format (piece : SsePiece) :
    (EventReader.read (piece.event.format codec).toList).events =
      EventBlock.events [] [piece.block codec] := by
  rw [SseEvent.text_block, EventReader.read_text]
  rfl

theorem isKept_iff (piece : SsePiece) (lastId : List Char) :
    SseSubscription.isKept ⟨(piece.block codec).type, (piece.block codec).data, lastId⟩ =
      piece.isKept := by
  have htypes : ∀ type : SseEventType,
      (decide (type.asStr.toList = SseEventType.message.asStr.toList) ||
        decide (type.asStr.toList = SseEventType.error.asStr.toList)) =
      (decide (type = .message) || decide (type = .error)) := by
    intro type
    cases type <;> decide
  exact htypes piece.event.eventType

/-- The ids of the pieces, from one on. -/
def lastId (c : UInt64) (pieces : List SsePiece) : UInt64 :=
  pieces.foldl (fun c piece => piece.id.getD c) c

/-- The client takes over the last id of the pieces. -/
theorem cursorOf_events (since : UInt64) (pieces : List SsePiece) {last : List Char}
    {lastEventId : Option (List Char)} (h : last = [] ∨ lastEventId = some last) :
    SseSubscription.cursorOf since
        (SseSubscription.lastIdOf lastEventId (EventBlock.events last (pieces.map (block codec)))) =
      lastId (SseSubscription.cursorOf since lastEventId) pieces := by
  induction pieces generalizing last lastEventId with
  | nil => rfl
  | cons piece pieces ih =>
      have hne : ∀ id, idText id ≠ [] := fun id => Nat.toDigits_ne_nil
      rw [List.map_cons, EventBlock.events, block_id, SseSubscription.lastIdOf, List.foldl_cons,
        lastId, List.foldl_cons]
      cases piece.id with
      | none =>
          have hsame : (if last = [] then lastEventId else some last) = lastEventId := by
            split
            · rfl
            · next hlast => exact (h.resolve_left hlast).symm
          simp only [Option.map_none, Option.getD_none, hsame]
          exact ih h
      | some id =>
          simp only [Option.map_some, Option.getD_some, if_neg (hne id)]
          refine (ih (.inr rfl)).trans ?_
          rw [SseSubscription.cursorOf, parseLastEventId_idText]
          rfl

/-- The header of the client stays an id that was given out. -/
theorem header_events (pieces : List SsePiece) {last : List Char}
    {lastEventId : Option (List Char)} (hlast : last = [] ∨ ∃ c, last = idText c)
    (h : ∀ header ∈ lastEventId, ∃ c, header = idText c) :
    ∀ header ∈ SseSubscription.lastIdOf lastEventId
      (EventBlock.events last (pieces.map (block codec))), ∃ c, header = idText c := by
  induction pieces generalizing last lastEventId with
  | nil => exact h
  | cons piece pieces ih =>
      rw [List.map_cons, EventBlock.events, block_id, SseSubscription.lastIdOf, List.foldl_cons]
      have hnext : (piece.id.map idText).getD last = [] ∨
          ∃ c, (piece.id.map idText).getD last = idText c := by
        cases piece.id with
        | none => exact hlast
        | some id => exact .inr ⟨id, rfl⟩
      refine ih hnext fun header hheader => ?_
      split at hheader
      · exact h header hheader
      · next hne =>
          obtain rfl := Option.some.inj hheader
          exact hnext.resolve_left hne

/-- The pieces come after an id, each under a larger one than those before it, and the kept ones are
copies of the events. -/
inductive Follows (retryMs : UInt32) : UInt64 → List BufferedEvent → List SsePiece → Prop
  | nil (c : UInt64) : Follows retryMs c [] []
  | kept {c : UInt64} {e : BufferedEvent} {events : List BufferedEvent} {piece : SsePiece}
      {pieces : List SsePiece} (hkept : piece.isKept = true) (hid : piece.id = some e.id)
      (hlt : c < e.id)
      (hcopy : SseSubscription.Copies codec retryMs e (piece.event.format codec))
      (h : Follows retryMs e.id events pieces) :
      Follows retryMs c (e :: events) (piece :: pieces)
  | other {c id : UInt64} {events : List BufferedEvent} {piece : SsePiece} {pieces : List SsePiece}
      (hkept : piece.isKept = false) (hid : piece.id = some id) (hlt : c < id)
      (h : Follows retryMs id events pieces) : Follows retryMs c events (piece :: pieces)
  | unnumbered {c : UInt64} {events : List BufferedEvent} {piece : SsePiece}
      {pieces : List SsePiece} (hid : piece.id = none) (h : Follows retryMs c events pieces) :
      Follows retryMs c events (piece :: pieces)

theorem isKept_of_none {piece : SsePiece} (hid : piece.id = none) : piece.isKept = false := by
  rw [Bool.eq_false_iff]
  intro hkept
  have hsome := piece.numbered (by simpa [isKept] using hkept)
  rw [hid] at hsome
  cases hsome

namespace Follows
variable {codec} {retryMs : UInt32} {c : UInt64} {events : List BufferedEvent}
  {pieces : List SsePiece}

/-- A client that reads the pieces is shown the events. -/
theorem shows (h : Follows codec retryMs c events pieces) (last : List Char) :
    List.Forall₂ (SseSubscription.Shows codec retryMs) events
      ((EventBlock.events last (pieces.map (block codec))).filter SseSubscription.isKept) := by
  induction h generalizing last with
  | nil c => exact .nil
  | kept hkept hid hlt hcopy h ih =>
      rw [List.map_cons, EventBlock.events, List.filter_cons_of_pos (by rwa [isKept_iff]), block_id,
        hid]
      refine .cons ⟨rfl, _, hcopy, ?_⟩ (ih _)
      rw [read_format, EventBlock.events, EventBlock.events, block_id, hid]
      rfl
  | other hkept hid hlt h ih =>
      rw [List.map_cons, EventBlock.events,
        List.filter_cons_of_neg (by rw [isKept_iff, hkept]; exact Bool.false_ne_true)]
      exact ih _
  | unnumbered hid h ih =>
      rw [List.map_cons, EventBlock.events, List.filter_cons_of_neg
        (by rw [isKept_iff, isKept_of_none hid]; exact Bool.false_ne_true)]
      exact ih _

theorem le_lastId (h : Follows codec retryMs c events pieces) : c ≤ lastId c pieces := by
  induction h with
  | nil c => exact UInt64.le_refl c
  | kept hkept hid hlt hcopy h ih =>
      rw [lastId, List.foldl_cons, hid]
      exact UInt64.le_trans (UInt64.le_of_lt hlt) ih
  | other hkept hid hlt h ih =>
      rw [lastId, List.foldl_cons, hid]
      exact UInt64.le_trans (UInt64.le_of_lt hlt) ih
  | unnumbered hid h ih =>
      rw [lastId, List.foldl_cons, hid]
      exact ih

/-- The ids of the events are those after the first id up to the last. -/
theorem range (h : Follows codec retryMs c events pieces) :
    ∀ e ∈ events, c < e.id ∧ e.id ≤ lastId c pieces := by
  induction h with
  | nil c => exact nofun
  | kept hkept hid hlt hcopy h ih =>
      rw [lastId, List.foldl_cons, hid]
      intro e he
      obtain rfl | he := List.mem_cons.mp he
      · exact ⟨hlt, h.le_lastId⟩
      · exact ⟨UInt64.lt_trans hlt (ih e he).1, (ih e he).2⟩
  | other hkept hid hlt h ih =>
      rw [lastId, List.foldl_cons, hid]
      exact fun e he => ⟨UInt64.lt_trans hlt (ih e he).1, (ih e he).2⟩
  | unnumbered hid h ih =>
      rw [lastId, List.foldl_cons, hid]
      exact ih

/-- A stream that is cut cuts the events. -/
theorem split {front back : List SsePiece} (h : Follows codec retryMs c events (front ++ back)) :
    ∃ seen rest, events = seen ++ rest ∧ Follows codec retryMs c seen front ∧
      Follows codec retryMs (lastId c front) rest back := by
  induction front generalizing c events with
  | nil => exact ⟨[], events, rfl, .nil c, h⟩
  | cons piece front ih =>
      cases h with
      | kept hkept hid hlt hcopy h =>
          obtain ⟨seen, rest, rfl, hseen, hrest⟩ := ih h
          refine ⟨_ :: seen, rest, rfl, .kept hkept hid hlt hcopy hseen, ?_⟩
          rwa [lastId, List.foldl_cons, hid]
      | other hkept hid hlt h =>
          obtain ⟨seen, rest, rfl, hseen, hrest⟩ := ih h
          refine ⟨seen, rest, rfl, .other hkept hid hlt hseen, ?_⟩
          rwa [lastId, List.foldl_cons, hid]
      | unnumbered hid h =>
          obtain ⟨seen, rest, rfl, hseen, hrest⟩ := ih h
          refine ⟨seen, rest, rfl, .unnumbered hid hseen, ?_⟩
          rwa [lastId, List.foldl_cons, hid]

theorem append {events' : List BufferedEvent} {pieces' : List SsePiece}
    (h : Follows codec retryMs c events pieces)
    (h' : Follows codec retryMs (lastId c pieces) events' pieces') :
    Follows codec retryMs c (events ++ events') (pieces ++ pieces') := by
  induction h with
  | nil c => exact h'
  | kept hkept hid hlt hcopy h ih =>
      rw [lastId, List.foldl_cons, hid] at h'
      exact .kept hkept hid hlt hcopy (ih h')
  | other hkept hid hlt h ih =>
      rw [lastId, List.foldl_cons, hid] at h'
      exact .other hkept hid hlt (ih h')
  | unnumbered hid h ih =>
      rw [lastId, List.foldl_cons, hid] at h'
      exact .unnumbered hid (ih h')

end Follows

section Emission
variable {codec} {size : Nat} {retryMs : UInt32} {log : EventLog}

theorem lt_freshId (hids : log.ids + 1 < 2 ^ 64) {c : UInt64} (hc : c.toNat ≤ log.ids) :
    c < log.freshId ∧ log.freshId.toNat = log.ids + 1 := by
  have hfresh : log.freshId.toNat = log.ids + 1 := UInt64.toNat_ofNat_of_lt' hids
  exact ⟨UInt64.lt_iff_toNat_lt.mpr (by omega), hfresh⟩

theorem sent_response (json : String) : (log.transport size retryMs).sent codec (.response json) =
    SseTransport.responseText codec retryMs log.freshId json := by
  simp only [SseTransport.sent, SseTransport.formatResponse, EventLog.nextId_transport]
  rfl

theorem sent_error (message : String) : (log.transport size retryMs).sent codec (.error message) =
    SseTransport.errorText codec log.freshId message := by
  simp only [SseTransport.sent, SseTransport.formatError, EventLog.nextId_transport]

theorem sent_endpoint (url : String) : (log.transport size retryMs).sent codec (.endpoint url) =
    (endpoint log.freshId url).event.format codec := by
  simp only [SseTransport.sent, SseTransport.formatEndpoint, EventLog.nextId_transport]
  rfl

/-- What is sent for a call goes on after every id that was given out. -/
theorem exists_of_call {call : SseCall} (hcall : call ≠ .reset)
    (hids : (log.record codec retryMs call).ids < 2 ^ 64) :
    ∃ events pieces, (log.record codec retryMs call).events = log.events ++ events ∧
      ((log.transport size retryMs).sent codec call).toList =
        EventBlock.text (pieces.map (block codec)) ∧
      ∀ c : UInt64, c.toNat ≤ log.ids → Follows codec retryMs c events pieces ∧
        (lastId c pieces).toNat ≤ (log.record codec retryMs call).ids := by
  cases call with
  | response json =>
      have hformat := format_response codec retryMs log.freshId json
      have hcopy : SseSubscription.Copies codec retryMs ⟨log.freshId, SseTransport.responseText
          codec retryMs log.freshId (sanitizeReplayPayload codec json)⟩
          ((response retryMs log.freshId json).event.format codec) := by
        refine .inr ⟨json, ?_, hformat⟩
        dsimp only
      refine ⟨[⟨log.freshId, _⟩], [.response retryMs log.freshId json], rfl, ?_, ?_⟩
      · rw [sent_response, ← hformat]
        exact SseEvent.text_block codec _
      · intro c hc
        obtain ⟨hlt, hfresh⟩ := lt_freshId hids hc
        exact ⟨.kept rfl rfl hlt hcopy (.nil _), hfresh.le⟩
  | error message =>
      have hformat := format_error codec log.freshId message
      have hcopy : SseSubscription.Copies codec retryMs
          ⟨log.freshId, SseTransport.errorText codec log.freshId message⟩
          ((error log.freshId message).event.format codec) := by
        refine .inl ?_
        dsimp only
        exact hformat
      refine ⟨[⟨log.freshId, _⟩], [.error log.freshId message], rfl, ?_, ?_⟩
      · rw [sent_error, ← hformat]
        exact SseEvent.text_block codec _
      · intro c hc
        obtain ⟨hlt, hfresh⟩ := lt_freshId hids hc
        exact ⟨.kept rfl rfl hlt hcopy (.nil _), hfresh.le⟩
  | endpoint url =>
      refine ⟨[], [.endpoint log.freshId url], (List.append_nil _).symm, ?_, ?_⟩
      · rw [sent_endpoint]
        exact SseEvent.text_block codec _
      · intro c hc
        obtain ⟨hlt, hfresh⟩ := lt_freshId hids hc
        exact ⟨.other rfl rfl hlt (.nil _), hfresh.le⟩
  | ping =>
      refine ⟨[], [.ping], (List.append_nil _).symm, SseEvent.text_block codec _, ?_⟩
      intro c hc
      exact ⟨.unnumbered rfl (.nil _), hc⟩
  | reset => exact absurd rfl hcall

/-- A kept event is the text of a piece. -/
theorem exists_of_record (calls : List SseCall) :
    ∀ e ∈ (calls.foldl (EventLog.record codec retryMs) .empty).events, ∃ piece : SsePiece,
      piece.isKept = true ∧ piece.id = some e.id ∧ piece.event.format codec = e.formatted := by
  let inv : EventLog → Prop := fun log => ∀ e ∈ log.events, ∃ piece : SsePiece,
    piece.isKept = true ∧ piece.id = some e.id ∧ piece.event.format codec = e.formatted
  suffices hstep : ∀ log call, inv log → inv (log.record codec retryMs call) from
    invariant_foldl hstep (fun e he => absurd he List.not_mem_nil) calls
  intro log call h
  have happend : ∀ (id : UInt64) (formatted : String), (∃ piece : SsePiece,
      piece.isKept = true ∧ piece.id = some id ∧ piece.event.format codec = formatted) →
      ∀ e ∈ log.events ++ [⟨id, formatted⟩], ∃ piece : SsePiece,
        piece.isKept = true ∧ piece.id = some e.id ∧ piece.event.format codec = e.formatted := by
    intro id formatted hpiece e he
    obtain he | he := List.mem_append.mp he
    · exact h e he
    · rw [List.mem_singleton.mp he]
      exact hpiece
  cases call with
  | response json =>
      exact happend _ _ ⟨_, rfl, rfl, format_response codec retryMs log.freshId _⟩
  | error message => exact happend _ _ ⟨_, rfl, rfl, format_error codec log.freshId message⟩
  | endpoint url | ping => exact h
  | reset => exact fun e he => absurd he List.not_mem_nil

/-- Kept events in order are sent again as pieces that follow. -/
theorem exists_of_replay {events : List BufferedEvent} {c : UInt64}
    (hgrowing : events.Pairwise fun e f => e.id < f.id) (hlt : ∀ e ∈ events, c < e.id)
    (h : ∀ e ∈ events, ∃ piece : SsePiece, piece.isKept = true ∧ piece.id = some e.id ∧
      piece.event.format codec = e.formatted) :
    ∃ pieces, Follows codec retryMs c events pieces ∧
      (String.join (events.map BufferedEvent.formatted)).toList =
        EventBlock.text (pieces.map (block codec)) ∧
      ∀ n, c.toNat ≤ n → (∀ e ∈ events, e.id.toNat ≤ n) → (lastId c pieces).toNat ≤ n := by
  induction events generalizing c with
  | nil => exact ⟨[], .nil c, rfl, fun n hc _ => hc⟩
  | cons e events ih =>
      obtain ⟨hfirst, hgrowing⟩ := List.pairwise_cons.mp hgrowing
      obtain ⟨he, hrest⟩ := List.forall_mem_cons.mp h
      obtain ⟨piece, hkept, hid, hformat⟩ := he
      obtain ⟨pieces, hfollows, htext, hlast⟩ := ih hgrowing hfirst hrest
      refine ⟨piece :: pieces, .kept hkept hid (hlt e List.mem_cons_self) (.inl hformat) hfollows,
        ?_, ?_⟩
      rotate_left
      · intro n _ hn
        obtain ⟨he, hevents⟩ := List.forall_mem_cons.mp hn
        rw [lastId, List.foldl_cons, hid]
        exact hlast n he hevents
      have hcons := EventBlock.text_append [piece.block codec] (pieces.map (block codec))
      refine Eq.trans ?_ hcons.symm
      rw [← htext, block, ← SseEvent.text_block, hformat]
      simp [String.toList_join]

end Emission
end SsePiece

/-- The events up to an id come before the others. -/
theorem filter_append_filter {events : List BufferedEvent}
    (h : events.Pairwise fun e f => e.id < f.id) (c : UInt64) (p : BufferedEvent → Bool) :
    events.filter p = events.filter (fun e => p e && decide (e.id ≤ c)) ++
      events.filter (fun e => p e && decide (c < e.id)) := by
  induction events with
  | nil => rfl
  | cons e events ih =>
      obtain ⟨hfirst, hgrowing⟩ := List.pairwise_cons.mp h
      by_cases hle : e.id ≤ c
      · have hlt : ¬ c < e.id := UInt64.not_lt.mpr hle
        rw [List.filter_cons, List.filter_cons, List.filter_cons]
        simp only [hle, hlt, decide_true, decide_false, Bool.and_true, Bool.and_false,
          Bool.false_eq_true, if_false, ih hgrowing]
        split <;> rfl
      · have hlt : c < e.id := UInt64.not_le.mp hle
        have hnone : events.filter (fun e => p e && decide (e.id ≤ c)) = [] := by
          rw [List.filter_eq_nil_iff]
          intro f hf hmem
          rw [Bool.and_eq_true, decide_eq_true_eq] at hmem
          exact hle (UInt64.le_trans (UInt64.le_of_lt (hfirst f hf)) hmem.2)
        have hrest := ih hgrowing
        rw [hnone, List.nil_append] at hrest
        rw [List.filter_cons, List.filter_cons, List.filter_cons, hnone, hrest]
        simp [hle, hlt]

namespace SseSubscription
open SsePiece

variable {codec : JsonCodec} {size : Nat} {retryMs : UInt32} {s s' : SseSubscription}

/-- What the client received and what is on its way is what the server has recorded since the client
last came without an id. -/
structure Sound (codec : JsonCodec) (size : Nat) (retryMs : UInt32) (s : SseSubscription) :
    Prop where
  transport : s.transport = (s.log codec retryMs).transport size retryMs
  ordered : (s.log codec retryMs).Ordered
  header : ∀ header ∈ s.lastEventId, ∃ c, header = idText c
  since_le : s.since ≤ s.cursor
  cursor_le : s.cursor.toNat ≤ (s.log codec retryMs).ids
  received : List.Forall₂ (Shows codec retryMs)
    ((s.log codec retryMs).events.filter fun e => s.since < e.id && e.id ≤ s.cursor)
    (s.received.filter isKept)
  body : ∀ body ∈ s.body, ∃ pieces, body.toList = EventBlock.text (pieces.map (block codec)) ∧
    Follows codec retryMs s.cursor
      ((s.log codec retryMs).events.filter fun e => s.cursor < e.id) pieces ∧
    (lastId s.cursor pieces).toNat ≤ (s.log codec retryMs).ids

theorem log_emit (call : SseCall) :
    (s.emit codec call).log codec retryMs = (s.log codec retryMs).record codec retryMs call := by
  rw [log, emit, List.foldl_append]
  rfl

theorem ids_le_record {log : EventLog} {call : SseCall} (hcall : call ≠ .reset) :
    log.ids ≤ (log.record codec retryMs call).ids := by
  cases call with
  | response json | error message | endpoint url => exact Nat.le_succ _
  | ping => exact Nat.le_refl _
  | reset => exact absurd rfl hcall

namespace Sound

theorem emit (h : s.Sound codec size retryMs) {call : SseCall} (hcall : call ≠ .reset)
    (hids : ((s.emit codec call).log codec retryMs).ids < 2 ^ 64) :
    (s.emit codec call).Sound codec size retryMs := by
  have hlog := @log_emit codec retryMs s call
  have hle : (s.log codec retryMs).ids ≤ ((s.emit codec call).log codec retryMs).ids :=
    hlog ▸ ids_le_record hcall
  obtain ⟨events, pieces', hevents, hsent, hfollows⟩ :=
    @exists_of_call codec size retryMs (s.log codec retryMs) call hcall (hlog ▸ hids)
  rw [← hlog] at hevents hfollows
  have hnew := ((hfollows s.cursor h.cursor_le).1).range
  refine ⟨?_, ?_, h.header, h.since_le, h.cursor_le.trans hle, ?_, ?_⟩
  · rw [hlog, ← EventLog.step_transport, ← h.transport]
    rfl
  · rw [hlog] at hids ⊢
    exact EventLog.Ordered.record (fun _ => h.ordered) call hids
  · have hnone : events.filter (fun e => s.since < e.id && e.id ≤ s.cursor) = [] := by
      rw [List.filter_eq_nil_iff]
      intro e he hmem
      rw [Bool.and_eq_true, decide_eq_true_eq, decide_eq_true_eq] at hmem
      exact absurd (hnew e he).1 (UInt64.not_lt.mpr hmem.2)
    have hreceived := h.received
    rw [hevents, List.filter_append]
    change List.Forall₂ _ (_ ++ events.filter fun e => s.since < e.id && e.id ≤ s.cursor) _
    rw [hnone, List.append_nil]
    exact hreceived
  · intro body hbody
    obtain ⟨before, hbefore, rfl⟩ := Option.map_eq_some_iff.mp hbody
    obtain ⟨pieces, htext, hpieces, hlast⟩ := h.body before hbefore
    obtain ⟨hnext, hlast'⟩ := hfollows _ hlast
    refine ⟨pieces ++ pieces', ?_, ?_, ?_⟩
    · rw [String.toList_append, htext, h.transport, hsent, List.map_append,
        EventBlock.text_append]
    · have hall : events.filter (fun e => s.cursor < e.id) = events :=
        List.filter_eq_self.mpr fun e he => decide_eq_true (hnew e he).1
      rw [hevents, List.filter_append]
      change Follows codec retryMs s.cursor (_ ++ events.filter fun e => s.cursor < e.id) _
      rw [hall]
      exact hpieces.append hnext
    · rw [lastId, List.foldl_append]
      exact hlast'

/-- The header of a client is read as the id that it stands on. -/
theorem parse_header (h : s.Sound codec size retryMs) {header : List Char}
    (hheader : s.lastEventId = some header) :
    SseTransport.parseLastEventId header = some s.cursor := by
  obtain ⟨c, rfl⟩ := h.header header hheader
  rw [cursor, hheader, cursorOf, parseLastEventId_idText]
  rfl

theorem lose (h : s.Sound codec size retryMs) {body : String} {text : List Char}
    (hbody : s.body = some body) (hfront : text <+: body.toList) :
    (s.lose text).Sound codec size retryMs := by
  obtain ⟨pieces, htext, hpieces, hlast⟩ := h.body body hbody
  obtain ⟨front, back, hblocks, hread⟩ := EventReader.read_cut (htext ▸ hfront)
  obtain ⟨front, back, rfl, rfl, -⟩ := List.map_eq_append_iff.mp hblocks
  have hcursor : (s.lose text).cursor = lastId s.cursor front := by
    rw [SseSubscription.lose, hread]
    exact cursorOf_events codec s.since front (.inl rfl)
  obtain ⟨seen, rest, hevents, hseen, hrest⟩ := hpieces.split
  have hle := hseen.le_lastId
  refine ⟨h.transport, h.ordered, ?_, ?_, ?_, ?_, nofun⟩
  · rw [SseSubscription.lose, hread]
    exact header_events codec front (.inl rfl) h.header
  · rw [hcursor]
    exact UInt64.le_trans h.since_le hle
  · rw [hcursor]
    have hback := UInt64.le_iff_toNat_le.mp hrest.le_lastId
    rw [lastId, lastId, ← List.foldl_append] at hback
    exact hback.trans hlast
  · have hsplit : ((s.log codec retryMs).events.filter fun e =>
          s.since < e.id && e.id ≤ (s.lose text).cursor) =
        ((s.log codec retryMs).events.filter fun e => s.since < e.id && e.id ≤ s.cursor) ++
          seen := by
      have hfront : ∀ e ∈ (s.log codec retryMs).events,
          ((s.since < e.id && e.id ≤ lastId s.cursor front) && decide (e.id ≤ s.cursor)) =
            (s.since < e.id && e.id ≤ s.cursor) := by
        intro e _
        rw [Bool.eq_iff_iff]
        simp only [Bool.and_eq_true, decide_eq_true_eq]
        exact ⟨fun he => ⟨he.1.1, he.2⟩, fun he => ⟨⟨he.1, UInt64.le_trans he.2 hle⟩, he.2⟩⟩
      have hback : ∀ e ∈ (s.log codec retryMs).events,
          ((s.since < e.id && e.id ≤ lastId s.cursor front) && decide (s.cursor < e.id)) =
            (decide (e.id ≤ lastId s.cursor front) && decide (s.cursor < e.id)) := by
        intro e _
        rw [Bool.eq_iff_iff]
        simp only [Bool.and_eq_true, decide_eq_true_eq]
        refine ⟨fun he => ⟨he.1.2, he.2⟩, fun he => ⟨⟨?_, he.1⟩, he.2⟩⟩
        exact UInt64.lt_of_le_of_lt h.since_le he.2
      have hkept : seen.filter (fun e => e.id ≤ lastId s.cursor front) = seen :=
        List.filter_eq_self.mpr fun e he => decide_eq_true (hseen.range e he).2
      have hgone : rest.filter (fun e => e.id ≤ lastId s.cursor front) = [] := by
        rw [List.filter_eq_nil_iff]
        intro e he hmem
        exact absurd (hrest.range e he).1 (UInt64.not_lt.mpr (of_decide_eq_true hmem))
      have hseen : ((s.log codec retryMs).events.filter fun e =>
          (s.since < e.id && e.id ≤ lastId s.cursor front) && decide (s.cursor < e.id)) = seen := by
        rw [List.filter_congr hback, ← List.filter_filter, hevents, List.filter_append, hkept,
          hgone, List.append_nil]
      rw [hcursor, filter_append_filter h.ordered.growing s.cursor, List.filter_congr hfront, hseen]
    change List.Forall₂ _ ((s.log codec retryMs).events.filter fun e =>
      s.since < e.id && e.id ≤ (s.lose text).cursor) _
    rw [hsplit, SseSubscription.lose, List.filter_append, hread]
    exact List.rel_append h.received (hseen.shows [])

theorem connect (h : s.Sound codec size retryMs) (hids : (s.log codec retryMs).ids < 2 ^ 64)
    (hid : s.lastEventId = none) :
    Sound codec size retryMs
      { s with body := some "", since := s.transport.eventCounter } := by
  have hcounter : s.transport.eventCounter.toNat = (s.log codec retryMs).ids := by
    rw [h.transport]
    exact UInt64.toNat_ofNat_of_lt' hids
  have hcursor : s.cursor = s.since := by
    rw [cursor, hid]
    rfl
  have hnew : cursor { s with body := some "", since := s.transport.eventCounter } =
      s.transport.eventCounter := by
    rw [cursor, hid]
    rfl
  have hnone : ∀ c : UInt64, (s.log codec retryMs).events.filter
      (fun e => c < e.id && e.id ≤ c) = [] := by
    intro c
    rw [List.filter_eq_nil_iff]
    intro e _ hmem
    rw [Bool.and_eq_true, decide_eq_true_eq, decide_eq_true_eq] at hmem
    exact absurd hmem.1 (UInt64.not_lt.mpr hmem.2)
  refine ⟨h.transport, h.ordered, h.header, ?_, ?_, ?_, ?_⟩
  · rw [hnew]
    exact UInt64.le_refl _
  · rw [hnew]
    exact hcounter.le
  · -- nothing was received so far
    have hreceived := h.received
    rw [hcursor, hnone] at hreceived
    rw [hnew]
    change List.Forall₂ _ ((s.log codec retryMs).events.filter fun e =>
      s.transport.eventCounter < e.id && e.id ≤ s.transport.eventCounter) _
    rw [hnone]
    exact hreceived
  · intro body hbody
    obtain rfl := Option.some.inj hbody
    have hlate : (s.log codec retryMs).events.filter
        (fun e => s.transport.eventCounter < e.id) = [] := by
      rw [List.filter_eq_nil_iff]
      intro e he hmem
      have hgiven := h.ordered.given e he
      rw [decide_eq_true_eq, UInt64.lt_iff_toNat_lt, hcounter] at hmem
      omega
    rw [hnew]
    change ∃ pieces, _ ∧ Follows codec retryMs _ ((s.log codec retryMs).events.filter _) _ ∧ _
    rw [hlate]
    exact ⟨[], rfl, .nil _, hcounter.le⟩

theorem resume (h : s.Sound codec size retryMs) {header : List Char} {c : UInt64}
    {events : List String} (hids : (s.log codec retryMs).ids < 2 ^ 64)
    (hid : s.lastEventId = some header)
    (hparse : SseTransport.parseLastEventId header = some c)
    (hreplay : s.transport.checkedReplayEvents c = .ok events) :
    Sound codec size retryMs { s with body := some (String.join events) } := by
  obtain rfl : s.cursor = c := by
    rw [h.parse_header hid] at hparse
    exact Option.some.inj hparse
  rw [h.transport, SseTransport.checkedReplayEvents_eq_ok_iff] at hreplay
  obtain ⟨hanswers, hevents⟩ := hreplay
  rw [h.ordered.eventsAfter hids hanswers] at hevents
  refine ⟨h.transport, h.ordered, h.header, h.since_le, h.cursor_le, h.received, ?_⟩
  intro body hbody
  obtain rfl := Option.some.inj hbody
  have hkept : ∀ e ∈ (s.log codec retryMs).events.filter fun e => s.cursor < e.id,
      s.cursor < e.id := fun e he => of_decide_eq_true (List.mem_filter.mp he).2
  obtain ⟨pieces, hfollows, htext, hlast⟩ := @exists_of_replay codec retryMs _ s.cursor
    (h.ordered.growing.filter _) hkept fun e he =>
      exists_of_record s.calls e (List.mem_filter.mp he).1
  refine ⟨pieces, ?_, hfollows, ?_⟩
  · rw [← htext, ← hevents]
  · exact hlast _ h.cursor_le fun e he => h.ordered.given e (List.mem_filter.mp he).1

theorem step (h : s.Sound codec size retryMs) (hstep : Step codec s s')
    (hids : (s'.log codec retryMs).ids < 2 ^ 64) : s'.Sound codec size retryMs := by
  cases hstep with
  | emit hcall => exact h.emit hcall hids
  | lose hbody hfront => exact h.lose hbody hfront
  | connect hbody hid => exact h.connect hids hid
  | resume hbody hid hparse hreplay => exact h.resume hids hid hparse hreplay

end Sound

theorem sound_new : (new size retryMs).Sound codec size retryMs := by
  refine ⟨EventLog.start_transport size retryMs, EventLog.Ordered.empty, nofun, ?_, ?_, ?_, nofun⟩
  · exact UInt64.le_refl _
  · exact Nat.le_refl 0
  · exact .nil

theorem ids_le_of_step (h : Step codec s s') :
    (s.log codec retryMs).ids ≤ (s'.log codec retryMs).ids := by
  cases h with
  | emit hcall =>
      rw [log_emit]
      exact ids_le_record hcall
  | lose | connect | resume => exact Nat.le_refl _

theorem sound_of_run (h : Relation.ReflTransGen (Step codec) (new size retryMs) s)
    (hids : (s.log codec retryMs).ids < 2 ^ 64) : s.Sound codec size retryMs := by
  induction h with
  | refl => exact sound_new
  | tail _ hstep ih => exact (ih ((ids_le_of_step hstep).trans_lt hids)).step hstep hids

/-- Whatever is sent, wherever connections break off and however often the client resumes, it has
received every message and error from its last connection without an id on up to the id it stands
on, in order and each once; and what is on the way on an open connection is all that is still
missing. -/
theorem received_once (h : Relation.ReflTransGen (Step codec) (new size retryMs) s)
    (hids : (s.log codec retryMs).ids < 2 ^ 64) :
    let events := (s.log codec retryMs).events.filter fun e => s.since < e.id
    List.Forall₂ (Shows codec retryMs) (events.filter fun e => e.id ≤ s.cursor)
      (s.received.filter isKept) ∧
    ∀ body, s.body = some body →
      List.Forall₂ (Shows codec retryMs) events ((s.lose body.toList).received.filter isKept) := by
  have hsound := sound_of_run h hids
  have hsame : ∀ c : UInt64, (((s.log codec retryMs).events.filter fun e => s.since < e.id).filter
      fun e => e.id ≤ c) =
        (s.log codec retryMs).events.filter fun e => s.since < e.id && e.id ≤ c := by
    intro c
    rw [List.filter_filter]
    exact List.filter_congr fun e _ => Bool.and_comm _ _
  refine ⟨?_, fun body hbody => ?_⟩
  · rw [hsame]
    exact hsound.received
  · obtain ⟨pieces, htext, hpieces, -⟩ := hsound.body body hbody
    have hafter : ∀ e ∈ (s.log codec retryMs).events,
        (decide (s.since < e.id) && decide (s.cursor < e.id)) = decide (s.cursor < e.id) := by
      intro e _
      rw [Bool.eq_iff_iff]
      simp only [Bool.and_eq_true, decide_eq_true_eq]
      exact ⟨And.right, fun he => ⟨UInt64.lt_of_le_of_lt hsound.since_le he, he⟩⟩
    rw [SseSubscription.lose, htext, EventReader.read_text, List.filter_append,
      filter_append_filter hsound.ordered.growing s.cursor, List.filter_congr hafter]
    exact List.rel_append hsound.received (hpieces.shows [])

/-- A client that was sent a message and an error. -/
def served : SseSubscription :=
  (({ new 4 3000 with body := some "" } : SseSubscription).emit .reference
    (.response "0")).emit .reference (.error "late")

/-- Its connection breaks off inside the second event, and it misses another message. -/
def cutOff : SseSubscription :=
  (served.lose ((served.body.getD "").toList.take 60)).emit .reference (.response "1")

/-- What it missed. -/
def missed : List String :=
  ["event: error\nid: 2\ndata: late\n\n", "event: message\nid: 3\nretry: 3000\ndata: 1\n\n"]

/-- It comes back with the id 1, and a ping and a message are sent to it. -/
def comeBack : SseSubscription :=
  (({ cutOff with body := some (String.join missed) } : SseSubscription).emit .reference
    .ping).emit .reference (.response "2")

theorem run_comeBack : Relation.ReflTransGen (Step .reference) (new 4 3000) comeBack := by
  have hconnect : Step .reference (new 4 3000) { new 4 3000 with body := some "" } :=
    .connect rfl rfl
  have hemit : ∀ (s : SseSubscription) call, call ≠ .reset →
      Step .reference s (s.emit .reference call) := fun _ _ h => .emit h
  have hserved : Relation.ReflTransGen (Step .reference) (new 4 3000) served :=
    ((Relation.ReflTransGen.single hconnect).tail (hemit _ (.response "0") nofun)).tail
      (hemit _ (.error "late") nofun)
  have hlose : Step .reference served (served.lose ((served.body.getD "").toList.take 60)) :=
    .lose rfl (List.take_prefix _ _)
  have hheader : cutOff.lastEventId = some ['1'] := by decide +kernel
  have hreplay : cutOff.transport.checkedReplayEvents 1 = .ok missed := by decide +kernel
  have hresume : Step .reference cutOff { cutOff with body := some (String.join missed) } :=
    .resume rfl hheader (by decide +kernel) hreplay
  have hcutOff : Relation.ReflTransGen (Step .reference) (new 4 3000) cutOff :=
    (hserved.tail hlose).tail (hemit _ (.response "1") nofun)
  exact ((hcutOff.tail hresume).tail (hemit _ .ping nofun)).tail (hemit _ (.response "2") nofun)

/-- One message was received before the connection broke off, the others come after it. -/
theorem received_once_resumed :
    List.Forall₂ (Shows .reference 3000)
      (((comeBack.log .reference 3000).events.filter fun e => comeBack.since < e.id).filter
        fun e => e.id ≤ comeBack.cursor) (comeBack.received.filter isKept) ∧
    comeBack.received.length = 1 ∧
    ∃ body, comeBack.body = some body ∧ List.Forall₂ (Shows .reference 3000)
      ((comeBack.log .reference 3000).events.filter fun e => comeBack.since < e.id)
      ((comeBack.lose body.toList).received.filter isKept) := by
  have hids : (comeBack.log .reference 3000).ids < 2 ^ 64 := by decide +kernel
  obtain ⟨hreceived, hmissing⟩ := received_once run_comeBack hids
  exact ⟨hreceived, by decide +kernel, _, rfl, hmissing _ rfl⟩

end SseSubscription
end Dcp
