import Dcp.Compat.Sse
import Dcp.Library.Accounting
import Dcp.Library.Run

/-!
Calls that send events through one transport at the same time. A call takes its id from the counter
and later adds its event to the buffer; other calls may come between the two. The events are
buffered in the order of the pushes, which is that of the ids only as long as no call is overtaken.
-/

namespace Dcp
open Library

inductive EmitCall
  | response (json : String)
  | error (message : String)

/-- Where a call is: what it does next, or what it has returned. -/
inductive EmitPoint
  | takeId (call : EmitCall)
  | push (call : EmitCall) (id : UInt64)
  | returned (id : UInt64) (formatted : String)

namespace SseTransport

def formatted (codec : JsonCodec) (transport : SseTransport) (id : UInt64) : EmitCall → String
  | .response json => responseText codec transport.defaultRetryMs id json
  | .error message => errorText codec id message

/-- What the call leaves for replay. -/
def replayFormatted (codec : JsonCodec) (transport : SseTransport) (id : UInt64) :
    EmitCall → String
  | .response json =>
      responseText codec transport.defaultRetryMs id (sanitizeReplayPayload codec json)
  | .error message => errorText codec id message

def emit (codec : JsonCodec) (transport : SseTransport) : EmitPoint → SseTransport × EmitPoint
  | .takeId call => (transport.nextId.2, .push call transport.nextId.1)
  | .push call id => (transport.pushEvent id (transport.replayFormatted codec id call),
      .returned id (transport.formatted codec id call))
  | point => (transport, point)

/-- A call that nothing comes between. -/
theorem emit_response (codec : JsonCodec) (transport : SseTransport) (json : String) :
    let taken := transport.emit codec (.takeId (.response json))
    taken.1.emit codec taken.2 = ((transport.formatResponse codec json).2,
      .returned transport.nextId.1 (transport.formatResponse codec json).1) := by
  simp only [emit, nextId, formatResponse, replayFormatted, formatted]

theorem emit_error (codec : JsonCodec) (transport : SseTransport) (message : String) :
    let taken := transport.emit codec (.takeId (.error message))
    taken.1.emit codec taken.2 = ((transport.formatError codec message).2,
      .returned transport.nextId.1 (transport.formatError codec message).1) := by
  simp only [emit, nextId, formatError, replayFormatted, formatted]

end SseTransport

structure Emission where
  transport : SseTransport
  calls : List EmitPoint

inductive EmitStep
  | call (call : EmitCall)
  | advance (index : Nat)

namespace Emission

def step (codec : JsonCodec) (s : Emission) : EmitStep → Emission
  | .call call => { s with calls := s.calls ++ [.takeId call] }
  | .advance index =>
      match s.calls[index]? with
      | none => s
      | some point =>
          let (transport, next) := s.transport.emit codec point
          ⟨transport, s.calls.set index next⟩

def start (size : Nat) (retryMs : UInt32) : Emission :=
  ⟨(SseTransport.withBufferSize size).withRetry retryMs, []⟩

def Pushed (s : Emission) (id : UInt64) : Prop := ∃ formatted, .returned id formatted ∈ s.calls

/-- The step does not add an event after one with an id that is not smaller. -/
def InTurn (s : Emission) : EmitStep → Prop
  | .advance index => ∀ call id, s.calls[index]? = some (.push call id) →
      ∀ earlier, s.Pushed earlier → earlier < id
  | .call _ => True

end Emission

namespace EventBuffer

/-- The events are in the order of their ids, the last one has the largest id, and a replay is in
that order too. -/
structure Ordered (buffer : EventBuffer) : Prop where
  growing : buffer.events.Pairwise fun e f => e.id < f.id
  latest : ∀ latest, buffer.latestId = some latest → ∀ e ∈ buffer.events, e.id ≤ latest
  replay : ∀ lastId, ∃ events : List BufferedEvent, buffer.eventsAfter lastId =
      events.map BufferedEvent.formatted ∧ events.Pairwise (fun e f => e.id < f.id) ∧
    ∀ e, e ∈ events ↔ e ∈ buffer.events ∧ lastId < e.id

theorem le_getLast {events : List BufferedEvent} (h : events.Pairwise fun e f => e.id < f.id)
    {latest : BufferedEvent} (hlatest : events.getLast? = some latest) {e : BufferedEvent}
    (he : e ∈ events) : e.id ≤ latest.id := by
  obtain ⟨front, rfl⟩ := List.getLast?_eq_some_iff.mp hlatest
  rcases List.mem_append.mp he with he | he
  · exact UInt64.le_of_lt ((List.pairwise_append.mp h).2.2 e he latest List.mem_cons_self)
  · rw [List.mem_singleton.mp he]
    exact UInt64.le_refl _

theorem ordered_of_growing {buffer : EventBuffer}
    (h : buffer.events.Pairwise fun e f => e.id < f.id) : buffer.Ordered := by
  refine ⟨h, ?_, ?_⟩
  · intro latest hlatest e he
    obtain ⟨last, hlast, rfl⟩ := Option.map_eq_some_iff.mp hlatest
    exact le_getLast h hlast he
  · intro lastId
    refine ⟨_, rfl, h.filter _, fun e => ?_⟩
    rw [List.mem_filter, decide_eq_true_iff]

theorem push_of_no_room {buffer : EventBuffer} (hsize : buffer.maxSize = 0) (id : UInt64)
    (formatted : String) : buffer.push id formatted = buffer := by
  rw [push, hsize, Recent.push, if_pos rfl, ← hsize]

/-- The events that stay when there is room for `n` more than the new one. -/
theorem events_push {buffer : EventBuffer} {n : Nat} (hsize : buffer.maxSize = n + 1) (id : UInt64)
    (formatted : String) :
    (buffer.push id formatted).events = buffer.events.rtake n ++ [⟨id, formatted⟩] := by
  rw [push, hsize, Recent.push, if_neg (Nat.succ_ne_zero n), Recent.popWhileFull_eq_rtake]

end EventBuffer

namespace Emission
variable {codec : JsonCodec} {s : Emission}

theorem pushed_set {index : Nat} {point next : EmitPoint} (hpoint : s.calls[index]? = some point)
    (hopen : ∀ id formatted, point ≠ .returned id formatted) (transport : SseTransport)
    (id : UInt64) : Pushed ⟨transport, s.calls.set index next⟩ id ↔
      s.Pushed id ∨ ∃ formatted, next = .returned id formatted := by
  constructor
  · rintro ⟨formatted, hmem⟩
    rcases eq_or_mem_of_mem_set hmem with heq | hmem
    · exact .inr ⟨formatted, heq.symm⟩
    · exact .inl ⟨formatted, hmem⟩
  · rintro (⟨formatted, hmem⟩ | ⟨formatted, rfl⟩)
    · exact ⟨formatted, mem_set_of_ne hpoint hmem (hopen id formatted).symm⟩
    · obtain ⟨hindex, -⟩ := List.getElem?_eq_some_iff.mp hpoint
      exact ⟨formatted, List.mem_set hindex _⟩

theorem step_cases (codec : JsonCodec) (s : Emission) (input : EmitStep) :
    ((∀ id, (s.step codec input).Pushed id ↔ s.Pushed id) ∧ s.InTurn input ∧
      (s.step codec input).transport.buffer = s.transport.buffer) ∨
    ∃ id formatted, (s.InTurn input ↔ ∀ earlier, s.Pushed earlier → earlier < id) ∧
      (s.step codec input).transport.buffer = s.transport.buffer.push id formatted ∧
      ∀ id', (s.step codec input).Pushed id' ↔ s.Pushed id' ∨ id' = id := by
  cases input with
  | call call =>
      refine .inl ⟨fun id => ?_, trivial, rfl⟩
      simp [step, Pushed]
  | advance index =>
      cases hpoint : s.calls[index]? with
      | none =>
          refine .inl ⟨fun id => ?_, ?_, ?_⟩
          · simp only [step, hpoint]
          · simp [InTurn, hpoint]
          · simp only [step, hpoint]
      | some point =>
          have hinTurn : (∀ call id, point ≠ .push call id) → s.InTurn (.advance index) := by
            intro hquiet call id hpush
            rw [hpoint] at hpush
            exact absurd (Option.some.inj hpush) (hquiet call id)
          cases point with
          | takeId call =>
              refine .inl ⟨fun id => ?_, hinTurn nofun, ?_⟩
              · simp only [step, hpoint, SseTransport.emit]
                rw [pushed_set hpoint nofun, or_iff_left nofun]
              · simp only [step, hpoint, SseTransport.emit, SseTransport.nextId]
          | push call id =>
              refine .inr ⟨id, s.transport.replayFormatted codec id call, ?_, ?_, fun id' => ?_⟩
              · simp [InTurn, hpoint]
              · simp only [step, hpoint, SseTransport.emit, SseTransport.pushEvent]
              · simp only [step, hpoint, SseTransport.emit]
                rw [pushed_set hpoint nofun]
                simp [eq_comm]
          | returned id formatted =>
              have hsame : s.step codec (.advance index) = s := by
                simp only [step, hpoint, SseTransport.emit, set_of_getElem? hpoint]
              rw [hsame]
              exact .inl ⟨fun _ => Iff.rfl, hinTurn nofun, rfl⟩

/-- The buffer has this room, its events are in order, and they were added by calls. -/
structure Tidy (size : Nat) (s : Emission) : Prop where
  room : s.transport.buffer.maxSize = size
  growing : s.transport.buffer.events.Pairwise fun e f => e.id < f.id
  pushed : ∀ e ∈ s.transport.buffer.events, s.Pushed e.id

theorem tidy_start (size : Nat) (retryMs : UInt32) : (start size retryMs).Tidy size :=
  ⟨rfl, List.Pairwise.nil, nofun⟩

theorem Tidy.step {size : Nat} (h : s.Tidy size) {input : EmitStep} (hturn : s.InTurn input) :
    (s.step codec input).Tidy size := by
  rcases step_cases codec s input with
    ⟨hpushed, -, hbuffer⟩ | ⟨id, formatted, hiff, hbuffer, hpushed⟩
  · constructor
    · rw [hbuffer, h.room]
    · rw [hbuffer]
      exact h.growing
    · intro e he
      rw [hbuffer] at he
      exact (hpushed e.id).mpr (h.pushed e he)
  · cases size with
    | zero =>
        rw [EventBuffer.push_of_no_room h.room] at hbuffer
        refine ⟨hbuffer ▸ h.room, hbuffer ▸ h.growing, fun e he => ?_⟩
        rw [hbuffer] at he
        exact (hpushed e.id).mpr (.inl (h.pushed e he))
    | succ n =>
        have hevents := EventBuffer.events_push h.room id formatted
        have hkept : ∀ e ∈ s.transport.buffer.events.rtake n, e ∈ s.transport.buffer.events :=
          fun e he => List.mem_of_mem_drop he
        refine ⟨hbuffer ▸ h.room, ?_, ?_⟩
        · rw [hbuffer, hevents, List.pairwise_append]
          refine ⟨h.growing.sublist (List.drop_sublist _ _), List.pairwise_singleton _ _, ?_⟩
          intro e he f hf
          rw [List.mem_singleton.mp hf]
          exact hiff.mp hturn e.id (h.pushed e (hkept e he))
        · intro e he
          rw [hbuffer, hevents] at he
          rw [hpushed]
          rcases List.mem_append.mp he with he | he
          · exact .inl (h.pushed e (hkept e he))
          · exact .inr (by rw [List.mem_singleton.mp he])

/-- There is room for one event at most, and no more than one is there. -/
structure Single (s : Emission) : Prop where
  room : s.transport.buffer.maxSize ≤ 1
  single : s.transport.buffer.events.length ≤ 1

theorem Single.step (h : s.Single) (input : EmitStep) : (s.step codec input).Single := by
  rcases step_cases codec s input with ⟨-, -, hbuffer⟩ | ⟨id, formatted, -, hbuffer, -⟩
  · exact ⟨hbuffer ▸ h.room, hbuffer ▸ h.single⟩
  · rcases Nat.le_one_iff_eq_zero_or_eq_one.mp h.room with hroom | hroom
    · rw [EventBuffer.push_of_no_room hroom] at hbuffer
      exact ⟨hbuffer ▸ h.room, hbuffer ▸ h.single⟩
    · refine ⟨hbuffer ▸ h.room, ?_⟩
      rw [hbuffer, EventBuffer.events_push hroom, List.rtake_zero]
      exact Nat.le_refl 1

/-- There is room for two events, and the last one has the largest id of all that were added. -/
structure Topped (s : Emission) : Prop where
  room : 2 ≤ s.transport.buffer.maxSize
  topped : ∀ id, s.Pushed id → ∃ latest, s.transport.buffer.events.getLast? = some latest ∧
    id ≤ latest.id

/-- The order of the buffer after a step tells that the step was in turn. -/
theorem Topped.step (h : s.Topped) {input : EmitStep}
    (hordered : (s.step codec input).transport.buffer.Ordered) :
    s.InTurn input ∧ (s.step codec input).Topped := by
  rcases step_cases codec s input with
    ⟨hpushed, hturn, hbuffer⟩ | ⟨id, formatted, hiff, hbuffer, hpushed⟩
  · refine ⟨hturn, hbuffer ▸ h.room, fun id hid => ?_⟩
    rw [hbuffer]
    exact h.topped id ((hpushed id).mp hid)
  · obtain ⟨n, hn⟩ := Nat.exists_eq_add_of_le' h.room
    have hevents := EventBuffer.events_push hn id formatted
    have hgrowing := hordered.growing
    rw [hbuffer, hevents] at hgrowing
    have hturn : ∀ earlier, s.Pushed earlier → earlier < id := by
      intro earlier hearlier
      obtain ⟨latest, hlatest, hle⟩ := h.topped earlier hearlier
      have hkept : latest ∈ s.transport.buffer.events.rtake (n + 1) := by
        rw [← Recent.getLast?_rtake (Nat.succ_le_succ (Nat.zero_le n))] at hlatest
        exact List.mem_of_getLast? hlatest
      exact UInt64.lt_of_le_of_lt hle
        ((List.pairwise_append.mp hgrowing).2.2 latest hkept _ List.mem_cons_self)
    refine ⟨hiff.mpr hturn, hbuffer ▸ h.room, fun id' hid' => ?_⟩
    refine ⟨⟨id, formatted⟩, ?_, ?_⟩
    · rw [hbuffer, hevents, List.getLast?_concat]
    · rcases (hpushed id').mp hid' with hid' | rfl
      · exact UInt64.le_of_lt (hturn id' hid')
      · exact UInt64.le_refl _

def after (codec : JsonCodec) (size : Nat) (retryMs : UInt32) (inputs : List EmitStep) : Emission :=
  inputs.foldl (step codec) (start size retryMs)

/-- The buffer is in order throughout a run exactly if every event is added in turn. A buffer for
one event cannot get out of order. -/
theorem ordered_iff (codec : JsonCodec) (size : Nat) (retryMs : UInt32) (inputs : List EmitStep) :
    (∀ front, front <+: inputs → (after codec size retryMs front).transport.buffer.Ordered) ↔
      size ≤ 1 ∨ EveryStep (step codec) InTurn (start size retryMs) inputs := by
  constructor
  · intro h
    rcases Nat.lt_or_ge 1 size with hsize | hsize
    · right
      have htopped : (start size retryMs).Topped := ⟨hsize, nofun⟩
      have hstep : ∀ s input, s.Topped → (step codec s input).transport.buffer.Ordered →
          s.InTurn input ∧ (step codec s input).Topped :=
        fun s input hs hordered => hs.step hordered
      have hrun := everyStep_of_prefixes (p := fun s : Emission => s.transport.buffer.Ordered) h
      exact hrun.imp hstep htopped
    · exact .inl hsize
  · rintro (hsize | hrun) front ⟨back, rfl⟩
    · have hsingle : (after codec size retryMs front).Single :=
        invariant_foldl (fun s input hs => hs.step input) ⟨hsize, Nat.zero_le 1⟩ front
      apply EventBuffer.ordered_of_growing
      match (after codec size retryMs front).transport.buffer.events, hsingle.single with
      | [], _ => exact List.Pairwise.nil
      | [e], _ => exact List.pairwise_singleton _ _
    · have htidy : (after codec size retryMs front).Tidy size :=
        hrun.append_left.invariant (fun s input hs hturn => hs.step hturn) (tidy_start size retryMs)
      exact EventBuffer.ordered_of_growing htidy.growing

/-- The call that took the first id is overtaken. -/
theorem overtaken :
    ¬ ∀ (codec : JsonCodec) (size : Nat) (retryMs : UInt32) (inputs : List EmitStep),
    (after codec size retryMs inputs).transport.buffer.Ordered := by
  intro h
  have hordered := h .reference 100 3000 [.call (.error "first"), .call (.error "second"),
    .advance 0, .advance 1, .advance 1, .advance 0]
  have hids : ([2, 1] : List UInt64).Pairwise (· < ·) := List.pairwise_map.mpr hordered.growing
  revert hids
  decide

end Emission
end Dcp
