import Dcp.Client.Python
import Dcp.Client.TypeScript
import Dcp.Library.Run

/-!
Which messages answer the pending requests of the two clients. A message is taken for a response
when its id is that of a pending request; whether it is a response is not looked at.
-/

namespace Dcp
open Library

namespace Python
open DcpClient
variable {loads : String → Loaded} {client : DcpClient} {message : String} {id : Nat}

/-- The future gets a result or an exception in the step. -/
def Completes (client client' : DcpClient) (id : Nat) : Prop :=
  client.futures id = some .waiting ∧
    ((∃ value, client'.futures id = some (.result value)) ∨
      ∃ error, client'.futures id = some (.exception error))

/-- The message has the id of a pending request that is waited for, and its error is an object if it
has one. -/
def Reaches (loads : String → Loaded) (client : DcpClient) (message : String) (id : Nat) : Prop :=
  ∃ members requestId, loads message = .value (.object members) ∧
    memberOf "id" members = some requestId ∧
    client.pending.find? (fun key => equalsInt key requestId) = some id ∧
    client.futures id = some .waiting ∧
    ∀ error, memberOf "error" members = some error → ∃ fields, error = .object fields

/-- Only a response to a pending request completes it. -/
def RoutedRight (loads : String → Loaded) (client : DcpClient) (event : Event) : Prop :=
  ∀ id ∈ client.pending, Completes client (step loads client event) id →
    ∃ message data, event = .received message ∧ loads message = .value data ∧ data.IsResponseTo id

/-- A message that reaches a request is a response to it. -/
def Unambiguous (loads : String → Loaded) (client : DcpClient) : Event → Prop
  | .received message => client.loop = .receiving → ∀ id, Reaches loads client message id →
      ∃ data, loads message = .value data ∧ data.IsResponseTo id
  | _ => True

theorem futures_setFuture (client : DcpClient) (id other : Nat) (future : Future) :
    (client.setFuture id future).futures other =
      if other = id then some future else client.futures other := rfl

/-- A client whose futures are the same but for one that was cancelled or created. -/
theorem not_completes_setFuture {future : Future} {other : Nat}
    (h : future = .waiting ∨ future = .cancelled) :
    ¬ Completes client (client.setFuture other future) id := by
  rintro ⟨hwaiting, hdone⟩
  rw [futures_setFuture] at hdone
  split at hdone
  · rcases h with rfl | rfl <;> simp at hdone
  · simp [hwaiting] at hdone

theorem not_completes_self {client' : DcpClient} (h : client'.futures = client.futures) :
    ¬ Completes client client' id := by
  rintro ⟨hwaiting, hdone⟩
  simp [h, hwaiting] at hdone

theorem not_completes_cancel {other : Nat} : ¬ Completes client (client.cancel other) id := by
  rw [cancel]
  split
  · exact not_completes_setFuture (.inr rfl)
  · exact not_completes_self rfl

theorem completes_complete_iff {future : Future} {other : Nat}
    (h : (∃ value, future = .result value) ∨ ∃ error, future = .exception error) :
    Completes client (client.complete other future).2 id ↔
      id = other ∧ client.futures id = some .waiting := by
  rw [complete]
  split
  · next hwaiting =>
      constructor
      · rintro ⟨hid, hdone⟩
        refine ⟨?_, hid⟩
        rw [futures_setFuture] at hdone
        by_contra hother
        simp [if_neg hother, hid] at hdone
      · rintro ⟨rfl, hid⟩
        refine ⟨hid, ?_⟩
        rw [futures_setFuture, if_pos rfl]
        simpa using h
  · next hdone =>
      refine iff_of_false (not_completes_self rfl) ?_
      rintro ⟨rfl, hid⟩
      exact hdone hid

theorem find_eq_none_of_not_hashable {requestId : ClientValue} (h : hashable requestId = false)
    (pending : List Nat) : pending.find? (fun key => equalsInt key requestId) = none := by
  rw [List.find?_eq_none]
  intro key _
  cases requestId with
  | array | object => exact Bool.false_ne_true
  | null | bool | number | string => cases h

theorem completes_handleResponse_iff (members : ClientMembers) (requestId : ClientValue) :
    Completes client (client.handleResponse members requestId).2 id ↔
      client.pending.find? (fun key => equalsInt key requestId) = some id ∧
        client.futures id = some .waiting ∧
        ∀ error, memberOf "error" members = some error → ∃ fields, error = .object fields := by
  cases hhash : hashable requestId with
  | false =>
      rw [handleResponse, hhash, find_eq_none_of_not_hashable hhash]
      exact iff_of_false (not_completes_self rfl) fun h => by cases h.1
  | true =>
      rw [handleResponse, hhash, if_pos rfl]
      cases hfind : client.pending.find? fun key => equalsInt key requestId with
      | none => exact iff_of_false (not_completes_self rfl) fun h => by cases h.1
      | some other =>
          -- taking the request out of the pending ones leaves the futures as they are
          have hcomplete : ∀ future, ((∃ value, future = .result value) ∨
                ∃ error, future = .exception error) →
              (Completes client (complete { client with pending := client.pending.erase other }
                other future).2 id ↔ id = other ∧ client.futures id = some .waiting) :=
            fun future =>
              @completes_complete_iff
                { client with pending := client.pending.erase other } id future other
          cases herror : memberOf "error" members with
          | none =>
              simp only
              rw [hcomplete _ (.inl ⟨_, rfl⟩)]
              simp [eq_comm]
          | some error =>
              cases error with
              | object fields =>
                  simp only
                  rw [hcomplete _ (.inr ⟨_, rfl⟩)]
                  simp [eq_comm]
              | null | bool | number | string | array =>
                  refine iff_of_false (not_completes_self rfl) fun h => ?_
                  obtain ⟨fields, hfields⟩ := h.2.2 _ rfl
                  cases hfields

theorem futures_handleNotification (client : DcpClient) (method : ClientValue) :
    (client.handleNotification method).2.futures = client.futures := by
  rw [handleNotification]
  split
  · split <;> rfl
  · rfl

theorem reaches_iff {members : ClientMembers} (h : loads message = .value (.object members)) :
    Reaches loads client message id ↔
      ∃ requestId, memberOf "id" members = some requestId ∧
        client.pending.find? (fun key => equalsInt key requestId) = some id ∧
        client.futures id = some .waiting ∧
        ∀ error, memberOf "error" members = some error → ∃ fields, error = .object fields := by
  constructor
  · rintro ⟨members', requestId, hloads, hrest⟩
    rw [h] at hloads
    obtain rfl := ClientValue.object.inj (Loaded.value.inj hloads)
    exact ⟨requestId, hrest⟩
  · rintro ⟨requestId, hrest⟩
    exact ⟨members, requestId, h, hrest⟩

theorem completes_handleMessage_iff :
    Completes client (client.handleMessage loads message).2 id ↔
      Reaches loads client message id := by
  cases hloads : loads message with
  | jsonDecodeError | raised =>
      rw [handleMessage, Reaches, hloads]
      refine iff_of_false (not_completes_self rfl) ?_
      rintro ⟨members, requestId, hvalue, -⟩
      cases hvalue
  | value data =>
      by_cases hdata : ∀ members, data ≠ .object members
      · rw [handleMessage_other hloads hdata]
        refine iff_of_false (not_completes_self rfl) ?_
        rintro ⟨members, requestId, hvalue, -⟩
        rw [hloads] at hvalue
        exact hdata members (Loaded.value.inj hvalue)
      · obtain ⟨members, rfl⟩ := not_forall_not.mp hdata
        rw [handleMessage_object hloads, reaches_iff hloads]
        cases hid : memberOf "id" members with
        | none =>
            refine iff_of_false (not_completes_self ?_) ?_
            · cases memberOf "method" members with
              | none => rfl
              | some method => exact futures_handleNotification client method
            · rintro ⟨requestId, hsome, -⟩
              cases hsome
        | some requestId =>
            cases requestId with
            | null =>
                refine iff_of_false (not_completes_self ?_) ?_
                · cases memberOf "method" members with
                  | none => rfl
                  | some method => exact futures_handleNotification client method
                · rintro ⟨requestId, hsome, hfind, -⟩
                  obtain rfl := Option.some.inj hsome
                  have hkey := List.find?_some hfind
                  cases hkey
            | bool | number | string | array | object =>
                rw [completes_handleResponse_iff]
                simp

theorem completes_congr {left right : DcpClient} (h : left.futures = right.futures) :
    Completes client left id ↔ Completes client right id := by
  rw [Completes, Completes, h]

theorem completes_received_iff :
    Completes client (step loads client (.received message)) id ↔
      client.loop = .receiving ∧ Reaches loads client message id := by
  rw [step, ← completes_handleMessage_iff]
  by_cases hloop : client.loop = .receiving
  · rw [if_pos hloop, and_iff_right hloop]
    apply completes_congr
    split
    · next heq => rw [heq]
    · next heq => rw [heq]
  · rw [if_neg hloop]
    exact iff_of_false (not_completes_self rfl) fun h => hloop h.1

/-- Nothing but a message completes a request. -/
theorem not_completes_step {event : Event} (h : ∀ message, event ≠ .received message) :
    ¬ Completes client (step loads client event) id := by
  cases event with
  | received message => exact absurd rfl (h message)
  | request => exact fun hdone => not_completes_setFuture (.inl rfl) hdone
  | callerCancelled other => exact not_completes_cancel
  | timeoutFired other =>
      rw [step]
      split
      · exact fun hdone => not_completes_cancel hdone
      · exact not_completes_self rfl
  | onNotification method => exact not_completes_self rfl
  | timeoutHandled | handlerDone | receiveEnded =>
      rw [step]
      split <;> exact not_completes_self rfl

theorem routedRight_iff (event : Event) :
    RoutedRight loads client event ↔ Unambiguous loads client event := by
  by_cases hevent : ∀ message, event ≠ .received message
  · refine iff_of_true (fun id _ hdone => absurd hdone (not_completes_step hevent)) ?_
    cases event with
    | received message => exact absurd rfl (hevent message)
    | request | timeoutFired | timeoutHandled | callerCancelled | onNotification | handlerDone
      | receiveEnded => trivial
  · obtain ⟨message, rfl⟩ := not_forall_not.mp hevent
    constructor
    · intro h hloop id hreach
      have hmem : id ∈ client.pending := by
        obtain ⟨_, _, -, -, hfind, -⟩ := hreach
        exact List.mem_of_find?_eq_some hfind
      obtain ⟨message', data, heq, hloads, hresponse⟩ :=
        h id hmem (completes_received_iff.mpr ⟨hloop, hreach⟩)
      obtain rfl := Event.received.inj heq
      exact ⟨data, hloads, hresponse⟩
    · intro h id _ hdone
      obtain ⟨hloop, hreach⟩ := completes_received_iff.mp hdone
      obtain ⟨data, hloads, hresponse⟩ := h hloop id hreach
      exact ⟨message, data, rfl, hloads, hresponse⟩

theorem routedRight_eq : RoutedRight loads = Unambiguous loads :=
  funext₂ fun _ event => propext (routedRight_iff event)

end Python

namespace TypeScript
open DcpClient
variable {parse : String → Option ClientValue} {client : DcpClient} {message : String} {id : Nat}

/-- The promise is settled with a result or an error of the other side. -/
def Answered : PromiseState → Prop
  | .resolved _ | .rejected (.dcpError _ _ _) => True
  | .waiting | .rejected .timeout | .rejected .sendFailed => False

/-- The promise gets an answer in the step. -/
def Completes (client client' : DcpClient) (id : Nat) : Prop :=
  client.promises id = some .waiting ∧ ∃ state, client'.promises id = some state ∧ Answered state

/-- The message has the id of a pending request that is waited for, and its error can be told if it
has one. -/
def Reaches (parse : String → Option ClientValue) (client : DcpClient) (message : String)
    (id : Nat) : Prop :=
  ∃ data value, parse message = some data ∧ property "id" data = some value ∧
    client.pendingFor value = some id ∧ client.promises id = some .waiting ∧ outcome data ≠ none

/-- Only a response to a pending request completes it. -/
def RoutedRight (parse : String → Option ClientValue) (client : DcpClient) (event : Event) : Prop :=
  ∀ id ∈ client.pending, Completes client (step parse client event) id →
    ∃ message data, event = .received message ∧ parse message = some data ∧ data.IsResponseTo id

/-- A message that reaches a request is a response to it. -/
def Unambiguous (parse : String → Option ClientValue) (client : DcpClient) : Event → Prop
  | .received message => ∀ id, Reaches parse client message id →
      ∃ data, parse message = some data ∧ data.IsResponseTo id
  | _ => True

theorem completes_settle_iff {state : PromiseState} {other : Nat} :
    Completes client (client.settle other state) id ↔
      id = other ∧ client.promises id = some .waiting ∧ Answered state := by
  rw [Completes, settle]
  split
  · next hwaiting =>
      constructor
      · rintro ⟨hid, new, hnew, hanswered⟩
        dsimp only at hnew
        split at hnew
        · next heq =>
            obtain rfl := Option.some.inj hnew
            exact ⟨heq, hid, hanswered⟩
        · rw [hid] at hnew
          obtain rfl := Option.some.inj hnew
          cases hanswered
      · rintro ⟨rfl, hid, hanswered⟩
        exact ⟨hid, state, if_pos rfl, hanswered⟩
  · next hsettled =>
      refine ⟨fun ⟨hid, new, hnew, hanswered⟩ => ?_, fun ⟨heq, hid, _⟩ => ?_⟩
      · rw [hid] at hnew
        obtain rfl := Option.some.inj hnew
        cases hanswered
      · exact absurd (heq ▸ hid) hsettled

theorem not_completes_self {client' : DcpClient} (h : client'.promises = client.promises) :
    ¬ Completes client client' id := by
  rintro ⟨hwaiting, state, hstate, hanswered⟩
  rw [h, hwaiting] at hstate
  obtain rfl := Option.some.inj hstate
  cases hanswered

theorem answered_outcome {data : ClientValue} {state : PromiseState}
    (h : outcome data = some state) : Answered state := by
  rw [outcome] at h
  split at h
  · split at h
    · simp only at h
      split at h
      · obtain rfl := Option.some.inj h
        trivial
      · cases h
    · obtain rfl := Option.some.inj h
      trivial
  · obtain rfl := Option.some.inj h
    trivial

theorem reaches_iff {data : ClientValue} (h : parse message = some data) :
    Reaches parse client message id ↔
      ∃ value, property "id" data = some value ∧ client.pendingFor value = some id ∧
        client.promises id = some .waiting ∧ outcome data ≠ none := by
  constructor
  · rintro ⟨data', value, hparse, hrest⟩
    rw [h] at hparse
    obtain rfl := Option.some.inj hparse
    exact ⟨value, hrest⟩
  · rintro ⟨value, hrest⟩
    exact ⟨data, value, h, hrest⟩

theorem completes_handleMessage_iff :
    Completes client (client.handleMessage parse message) id ↔
      Reaches parse client message id := by
  cases hparse : parse message with
  | none =>
      rw [handleMessage, Reaches, hparse]
      refine iff_of_false (not_completes_self rfl) ?_
      rintro ⟨_, _, hdata, -⟩
      cases hdata
  | some data =>
      rw [handleMessage_value client hparse, reaches_iff hparse]
      cases property "id" data with
      | none =>
          refine iff_of_false (not_completes_self rfl) ?_
          rintro ⟨_, hvalue, -⟩
          cases hvalue
      | some value =>
          cases hpending : client.pendingFor value with
          | none =>
              simp only [hpending]
              refine iff_of_false (not_completes_self rfl) ?_
              rintro ⟨other, hvalue, hfound, -⟩
              rw [← Option.some.inj hvalue, hpending] at hfound
              cases hfound
          | some other =>
              simp only [hpending]
              cases houtcome : outcome data with
              | none =>
                  refine iff_of_false (not_completes_self rfl) ?_
                  rintro ⟨_, -, -, -, hsome⟩
                  exact hsome rfl
              | some state =>
                  -- taking the request out of the pending ones leaves the promises as they are
                  have hsettle := @completes_settle_iff
                    { client with pending := client.pending.erase other } id state other
                  refine Iff.trans hsettle ?_
                  simp [answered_outcome houtcome, hpending, eq_comm]

theorem not_completes_giveUp {other : Nat} {reason : Rejection}
    (h : ¬ Answered (.rejected reason)) :
    ¬ Completes client (client.giveUp other reason) id := fun hdone =>
  h (@completes_settle_iff { client with pending := client.pending.erase other } id _ _ |>.mp
    hdone).2.2

/-- Nothing but a message completes a request. -/
theorem not_completes_step {event : Event} (h : ∀ message, event ≠ .received message) :
    ¬ Completes client (step parse client event) id := by
  cases event with
  | received message => exact absurd rfl (h message)
  | sendFailed other => exact not_completes_giveUp not_false
  | timeout other =>
      rw [step]
      split
      · exact not_completes_giveUp not_false
      · exact not_completes_self rfl
  | request =>
      rintro ⟨hwaiting, state, hstate, hanswered⟩
      rw [step, DcpClient.request] at hstate
      dsimp only at hstate
      split at hstate
      · obtain rfl := Option.some.inj hstate
        cases hanswered
      · rw [hwaiting] at hstate
        obtain rfl := Option.some.inj hstate
        cases hanswered

theorem routedRight_iff (event : Event) :
    RoutedRight parse client event ↔ Unambiguous parse client event := by
  by_cases hevent : ∀ message, event ≠ .received message
  · refine iff_of_true (fun id _ hdone => absurd hdone (not_completes_step hevent)) ?_
    cases event with
    | received message => exact absurd rfl (hevent message)
    | request | timeout | sendFailed => trivial
  · obtain ⟨message, rfl⟩ := not_forall_not.mp hevent
    constructor
    · intro h id hreach
      have hmem : id ∈ client.pending := by
        obtain ⟨_, value, -, -, hfind, -⟩ := hreach
        cases value with
        | number value => exact List.mem_of_find?_eq_some hfind
        | null | bool | string | array | object => cases hfind
      obtain ⟨message', data, heq, hparse, hresponse⟩ :=
        h id hmem (completes_handleMessage_iff.mpr hreach)
      obtain rfl := Event.received.inj heq
      exact ⟨data, hparse, hresponse⟩
    · intro h id _ hdone
      obtain ⟨data, hparse, hresponse⟩ := h id (completes_handleMessage_iff.mp hdone)
      exact ⟨message, data, rfl, hparse, hresponse⟩

theorem routedRight_eq : RoutedRight parse = Unambiguous parse :=
  funext₂ fun _ event => propext (routedRight_iff event)

end TypeScript

/-- In every run of either client responses alone complete requests, if and only if every message
that reaches a pending request is a response to it. -/
theorem clients_route_iff (loads : String → Python.Loaded) (parse : String → Option ClientValue)
    (events : List Python.Event) (events' : List TypeScript.Event) :
    (EveryStep (Python.step loads) (Python.RoutedRight loads) Python.DcpClient.new events ↔
      EveryStep (Python.step loads) (Python.Unambiguous loads) Python.DcpClient.new events) ∧
    (EveryStep (TypeScript.step parse) (TypeScript.RoutedRight parse) TypeScript.DcpClient.new
        events' ↔
      EveryStep (TypeScript.step parse) (TypeScript.Unambiguous parse) TypeScript.DcpClient.new
        events') := by
  rw [Python.routedRight_eq, TypeScript.routedRight_eq]
  exact ⟨Iff.rfl, Iff.rfl⟩

/-- A request of the server with the id of the client's first request. -/
def pingRequest : ClientValue :=
  .object [(chars "jsonrpc", .string (chars "2.0")), (chars "id", .number (some 1)),
    (chars "method", .string (chars "ping"))]

def pingText : String := "\x7b\"jsonrpc\":\"2.0\",\"id\":1,\"method\":\"ping\"\x7d"

theorem pingRequest_not_response (id : Nat) : ¬ pingRequest.IsResponseTo id := by
  rintro ⟨hmethod, -⟩
  exact absurd hmethod (by decide)

/-- It completes the client's request. -/
theorem clients_route_ping :
    (¬ ∀ loads events, EveryStep (Python.step loads) (Python.RoutedRight loads)
      Python.DcpClient.new events) ∧
    ¬ ∀ parse events, EveryStep (TypeScript.step parse) (TypeScript.RoutedRight parse)
      TypeScript.DcpClient.new events := by
  constructor
  · intro h
    have hrun := h (fun _ => .value pingRequest) [.request, .received pingText]
    have hreach : Python.Reaches (fun _ => .value pingRequest) Python.DcpClient.new.request
        pingText 1 :=
      ⟨_, .number (some 1), rfl, rfl, rfl, rfl, fun error herror => by cases herror⟩
    obtain ⟨message, data, -, hloads, hresponse⟩ := hrun.2.1 1 (by decide)
      (Python.completes_received_iff.mpr ⟨rfl, hreach⟩)
    obtain rfl := Python.Loaded.value.inj hloads
    exact pingRequest_not_response 1 hresponse
  · intro h
    have hrun := h (fun _ => some pingRequest) [.request, .received pingText]
    have hreach : TypeScript.Reaches (fun _ => some pingRequest) TypeScript.DcpClient.new.request
        pingText 1 :=
      ⟨pingRequest, .number (some 1), rfl, rfl, rfl, rfl, Option.some_ne_none _⟩
    obtain ⟨message, data, -, hparse, hresponse⟩ := hrun.2.1 1 (by decide)
      (TypeScript.completes_handleMessage_iff.mpr hreach)
    obtain rfl := Option.some.inj hparse
    exact pingRequest_not_response 1 hresponse

end Dcp
