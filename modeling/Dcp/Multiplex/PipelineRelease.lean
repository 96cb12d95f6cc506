import Dcp.Multiplex.PipelineFailure

/-!
Requests that are finished and their streams. A response closes the stream of its request; an error
or a cancellation leaves it open, so that finished requests pile up in the table of streams unless
their streams were closed before.
-/

namespace Dcp
open Library

namespace MultiplexedConnection
variable {c : MultiplexedConnection} {id : UInt16} {state state' : StreamState}

def Released (c : MultiplexedConnection) (id : UInt16) : Prop :=
  ∀ state, c.streams.lookup id = some state → state.status.canSend = false

theorem canSend_closeLocal (state : StreamState) : state.closeLocal.status.canSend = false := by
  unfold StreamState.closeLocal
  cases state.status <;> rfl

theorem canSend_closeRemote (h : state.status.canSend = false) :
    state.closeRemote.status.canSend = false := by
  unfold StreamState.closeRemote
  cases hstatus : state.status <;> simp_all [StreamStatus.canSend]

theorem canSend_stores {maxRecvBufferBytes : Nat} {call : ConnectionCall}
    {history history' : StreamHistory}
    (h : Stores maxRecvBufferBytes call id state history state' history')
    (hclosed : state.status.canSend = false) : state'.status.canSend = false := by
  cases h with
  | sends buffer => exact hclosed
  | delivers => rw [state.status_takeRecv, hclosed]
  | accepts payload hqueued =>
      obtain ⟨-, rfl⟩ := StreamState.queueRecv_eq_ok hqueued
      exact hclosed
  | closesLocal => exact canSend_closeLocal state
  | closesRemote => exact canSend_closeRemote hclosed
  | resets => rfl

theorem released_after (hheld : c.hasStream id) (h : c.Released id) (call : ConnectionCall) :
    (c.after call).Released id := by
  obtain ⟨state, hlookup⟩ := lookup_of_hasStream hheld
  have hclosed := h state hlookup
  have hmoves := Monitored.step_moves ⟨c, fun _ => .new⟩ call
  have hconn := Monitored.conn_step ⟨c, fun _ => .new⟩ call
  generalize Monitored.step ⟨c, fun _ => .new⟩ call = m at hmoves hconn
  intro state' hlookup'
  rw [← hconn] at hlookup'
  have hsame_state : some state = some state' → state'.status.canSend = false :=
    fun heq => Option.some.inj heq ▸ hclosed
  cases hmoves with
  | quiet hsame => exact hsame_state (hlookup.symm.trans ((hsame.lookup id).symm.trans hlookup'))
  | creates a ha hopen hroom hfree hsame =>
      have hstored := (hsame.lookup_withNewStream id).symm.trans hlookup'
      have hne : id ≠ a := by
        rintro rfl
        exact Option.some_ne_none state (hlookup.symm.trans hfree)
      rw [if_neg hne] at hstored
      exact hsame_state (hlookup.symm.trans hstored)
  | @stores conn a before after history' hfound hstores hsame =>
      have hstored := (hsame.lookup_setStream id).symm.trans hlookup'
      split at hstored
      · next ha =>
          subst ha
          cases hlookup.symm.trans hfound
          exact Option.some.inj hstored ▸ canSend_stores hstores hclosed
      · exact hsame_state (hlookup.symm.trans hstored)
  | @removes conn a before history' hfound hremoves hsame =>
      have hstored := (hsame.lookup_withoutStream id).symm.trans hlookup'
      split at hstored
      · cases hstored
      · exact hsame_state (hlookup.symm.trans hstored)
  | closes => cases hlookup'

theorem released_closeStream (c : MultiplexedConnection) (id : UInt16) :
    (c.closeStream id).2.Released id := by
  intro state' hlookup'
  unfold closeStream at hlookup'
  cases hlookup : c.streams.lookup id with
  | none =>
      rw [hlookup] at hlookup'
      cases hlookup.symm.trans hlookup'
  | some state =>
      rw [hlookup] at hlookup'
      have hsame := (queueFrame_moves (c.setStream id state.closeLocal) (.fin id) []).2
      have hstored := (hsame.lookup_setStream id).trans (if_pos rfl)
      rw [hstored] at hlookup'
      exact Option.some.inj hlookup' ▸ canSend_closeLocal state

end MultiplexedConnection

namespace PipelinedClient
variable {client : PipelinedClient}

theorem lookup_send (client : PipelinedClient) (channel : Nat) (data : List UInt8) {id : UInt16}
    (h : client.connection.hasStream id ∨ id ≠ client.connection.nextFreeId) :
    (client.send channel data).2.connection.streams.lookup id =
      client.connection.streams.lookup id := by
  by_cases hready : client.Ready
  · obtain ⟨connection, hothers, hsend⟩ := hready.send channel data
    rw [hsend]
    refine hothers id (h.elim (fun hheld hid => ?_) fun hne => hne)
    rw [hid, MultiplexedConnection.hasStream, hready.2.1.free] at hheld
    cases hheld
  · by_cases hhalfway : client.StopsHalfway
    · obtain ⟨connection, hsame, hsend⟩ := hhalfway.send channel data
      rw [hsend]
      exact hhalfway.2.1.lookup_rollback hsame id
    · obtain ⟨e, connection, hsend, hsame⟩ := send_of_neither hready hhalfway channel data
      rw [hsend]
      exact hsame.streams id

def completes (client : PipelinedClient) : PipelineCall → List PendingRequest
  | .processResponse order streamId _ | .processError order streamId _ =>
      (client.takePending order streamId).1.toList
  | .cancelAll order => (order.arrange client.pending.toPairs).map Prod.snd
  | .send _ | .connection _ => []

theorem pending_of_completes {call : PipelineCall} {request : PendingRequest}
    (h : request ∈ client.completes call) :
    ∃ id, client.pending.lookup id = some request := by
  have htaken : ∀ (order : PendingOrder) (streamId : UInt16),
      request ∈ (client.takePending order streamId).1.toList →
        ∃ id, client.pending.lookup id = some request := by
    intro order streamId hmem
    obtain ⟨id, request', hlookup, -, htake⟩ | ⟨-, htake⟩ := client.takePending_cases order streamId
    · rw [htake, Option.toList_some, List.mem_singleton] at hmem
      exact ⟨id, hmem ▸ hlookup⟩
    · rw [htake] at hmem
      cases hmem
  cases call with
  | processResponse order streamId data => exact htaken order streamId h
  | processError order streamId error => exact htaken order streamId h
  | cancelAll order =>
      obtain ⟨entry, hentry, rfl⟩ := List.mem_map.mp h
      exact ⟨entry.1, Table.mem_toPairs_iff.mp ((order.perm _).mem_iff.mp hentry)⟩
  | send | connection => cases h

end PipelinedClient

namespace Pipeline
open PipelinedClient
variable {p : Pipeline}

theorem responses_step (p : Pipeline) (call : PipelineCall) {channel : Nat} :
    channel ∈ (p.step call).responses.map Prod.fst ↔ channel ∈ p.responses.map Prod.fst ∨
      channel ∈ (p.client.completes call).map PendingRequest.responseTx := by
  cases call with
  | send data => simp [step, completes]
  | connection call => simp [step, completes]
  | processResponse order streamId data =>
      obtain ⟨_, _, _, _, htake⟩ | ⟨_, htake⟩ := p.client.takePending_cases order streamId <;>
        simp [step, completes, processResponse, htake]
  | processError order streamId error =>
      obtain ⟨_, _, _, _, htake⟩ | ⟨_, htake⟩ := p.client.takePending_cases order streamId <;>
        simp [step, completes, processError, htake]
  | cancelAll order =>
      simp only [step, completes, PipelinedClient.cancelAll, List.map_append, List.map_map,
        List.mem_append]
      rfl

/-- A request of the table was there before, or it is the one that is sent now. -/
theorem pending_step {call : PipelineCall} {id : UInt64} {request : PendingRequest}
    (h : (p.step call).client.pending.lookup id = some request) :
    p.client.pending.lookup id = some request ∨
      (∃ data, call = .send data) ∧ request = p.client.waitingRequest p.channels ∧
        p.client.connection.nextFreeId ∈ opens p.client := by
  have htaken : ∀ (order : PendingOrder) (streamId : UInt16),
      (p.client.takePending order streamId).2.pending.lookup id = some request →
        p.client.pending.lookup id = some request := by
    intro order streamId hlookup
    obtain ⟨_, _, _, _, htake⟩ | ⟨_, htake⟩ := p.client.takePending_cases order streamId
    · rw [htake] at hlookup
      exact Table.lookup_of_lookup_erase hlookup
    · rwa [htake] at hlookup
  cases call with
  | send data =>
      have hcases := p.client.send_cases p.channels data
      change (p.client.send p.channels data).2.pending.lookup id = some request at h
      generalize (p.client.send p.channels data).2 = client at hcases h
      generalize hopens : opens p.client = streams at hcases ⊢
      cases hcases with
      | refused hpending => exact .inl (hpending ▸ h)
      | waits _ _ hpending =>
          rw [hpending, Table.lookup_insert_eq] at h
          split at h
          · exact .inr ⟨⟨data, rfl⟩, (Option.some.inj h).symm, List.mem_singleton_self _⟩
          · exact .inl h
      | takenBack _ hpending => exact .inl (Table.lookup_of_lookup_erase (hpending ▸ h))
  | processResponse order streamId data =>
      refine .inl (htaken order streamId ?_)
      obtain ⟨_, _, _, _, htake⟩ | ⟨_, htake⟩ := p.client.takePending_cases order streamId <;>
        simpa only [step, processResponse, htake] using h
  | processError order streamId error =>
      refine .inl (htaken order streamId ?_)
      obtain ⟨_, _, _, _, htake⟩ | ⟨_, htake⟩ := p.client.takePending_cases order streamId <;>
        simpa only [step, processError, htake] using h
  | cancelAll order => cases h
  | connection call => exact .inl h

theorem released_of_completes {order : PendingOrder} {streamId : UInt16} {data : List UInt8}
    {request : PendingRequest}
    (h : request ∈ p.client.completes (.processResponse order streamId data)) :
    (p.step (.processResponse order streamId data)).client.connection.Released
      request.streamId := by
  obtain ⟨_, request', _, hstream, htake⟩ | ⟨_, htake⟩ := p.client.takePending_cases order streamId
  · rw [completes, htake, Option.toList_some, List.mem_singleton] at h
    subst h
    simp only [step, processResponse, htake, hstream]
    exact MultiplexedConnection.released_closeStream _ _
  · rw [completes, htake] at h
    cases h

theorem connection_of_completes {call : PipelineCall} {request : PendingRequest}
    (h : request ∈ p.client.completes call)
    (hno : ∀ order streamId data, call ≠ .processResponse order streamId data) :
    (p.step call).client.connection = p.client.connection := by
  cases call with
  | processResponse order streamId data => exact absurd rfl (hno order streamId data)
  | processError order streamId error =>
      obtain ⟨_, _, _, _, htake⟩ | ⟨_, htake⟩ := p.client.takePending_cases order streamId <;>
        simp only [step, processError, htake]
  | cancelAll order => rfl
  | send | connection => cases h

theorem released_step {id : UInt16} (hheld : p.client.connection.hasStream id)
    (h : p.client.connection.Released id) (call : PipelineCall) :
    (p.step call).client.connection.Released id := by
  cases call with
  | send data =>
      intro state hlookup
      change (p.client.send p.channels data).2.connection.streams.lookup id = some state at hlookup
      rw [p.client.lookup_send p.channels data (.inl hheld)] at hlookup
      exact h state hlookup
  | processResponse order streamId data =>
      obtain ⟨_, _, _, _, htake⟩ | ⟨_, htake⟩ := p.client.takePending_cases order streamId
      · simp only [step, processResponse, htake]
        exact MultiplexedConnection.released_after hheld h (.closeStream streamId)
      · simpa only [step, processResponse, htake] using h
  | processError order streamId error =>
      obtain ⟨_, _, _, _, htake⟩ | ⟨_, htake⟩ := p.client.takePending_cases order streamId <;>
        simpa only [step, processError, htake] using h
  | cancelAll order => exact h
  | connection call => exact MultiplexedConnection.released_after hheld h call

theorem channels_step (p : Pipeline) (call : PipelineCall) :
    p.channels ≤ (p.step call).channels ∧
      ∀ data, call = .send data → p.channels < (p.step call).channels := by
  cases call with
  | send data => exact ⟨Nat.le_succ _, fun _ _ => Nat.lt_succ_self _⟩
  | processResponse | processError | cancelAll | connection =>
      exact ⟨Nat.le_refl _, fun _ h => nomatch h⟩

end Pipeline

/-- A run with the request that each stream of the table was opened for, by its channel. -/
structure Leased where
  pipe : Pipeline
  owner : UInt16 → Option Nat

namespace Leased
open PipelinedClient
variable {l : Leased} {call : PipelineCall}

def start (connection : MultiplexedConnection) (maxInFlight : UInt64) : Leased :=
  ⟨.start connection maxInFlight, fun _ => none⟩

/-- The request that a stream which is not in the table is opened for. -/
def opener (p : Pipeline) (id : UInt16) : PipelineCall → Option Nat
  | .send _ => if id ∈ Pipeline.opens p.client then some p.channels else none
  | _ => none

def step (l : Leased) (call : PipelineCall) : Leased where
  pipe := l.pipe.step call
  owner id :=
    if l.pipe.client.connection.hasStream id then l.owner id else opener l.pipe id call

def Finished (l : Leased) (channel : Nat) : Prop := channel ∈ l.pipe.responses.map Prod.fst

/-- Of the completed requests no stream is locally open. -/
def Tidy (l : Leased) : Prop :=
  ∀ id channel, l.owner id = some channel → l.Finished channel →
    l.pipe.client.connection.Released id

/-- A request that an error or a cancellation completes has its stream released already, or has it
no more. -/
def ReleasedBefore (l : Leased) (call : PipelineCall) : Prop :=
  match call with
  | .processError .. | .cancelAll _ =>
      ∀ request ∈ l.pipe.client.completes call,
        l.owner request.streamId = some request.responseTx →
          l.pipe.client.connection.Released request.streamId
  | .send _ | .processResponse .. | .connection _ => True

/-- Channels are numbered in order, and a waiting request owns no stream but its own. -/
structure Sound (l : Leased) : Prop where
  waiting : ∀ id request, l.pipe.client.pending.lookup id = some request →
    request.responseTx < l.pipe.channels
  responded : ∀ channel, l.Finished channel → channel < l.pipe.channels
  owned : ∀ id channel, l.owner id = some channel → channel < l.pipe.channels
  own : ∀ id requestId request, l.pipe.client.pending.lookup requestId = some request →
    l.owner id = some request.responseTx → request.streamId = id

theorem sound_start (connection : MultiplexedConnection) (maxInFlight : UInt64) :
    Sound (start connection maxInFlight) where
  waiting id request h := by cases h
  responded channel h := by cases h
  owned id channel h := by cases h
  own id requestId request h := by cases h

/-- A stream was owned before, or it is opened for the request that is sent now. -/
theorem owner_step {call : PipelineCall} {id : UInt16} {channel : Nat}
    (h : (l.step call).owner id = some channel) :
    l.pipe.client.connection.hasStream id ∧ l.owner id = some channel ∨
      (∃ data, call = .send data) ∧ id ∈ Pipeline.opens l.pipe.client ∧
        channel = l.pipe.channels := by
  change (if l.pipe.client.connection.hasStream id then l.owner id else opener l.pipe id call) =
    some channel at h
  split at h
  · next hheld => exact .inl ⟨hheld, h⟩
  · cases call with
    | send data =>
        rw [opener] at h
        split at h
        · next hopened => exact .inr ⟨⟨data, rfl⟩, hopened, (Option.some.inj h).symm⟩
        · cases h
    | processResponse | processError | cancelAll | connection => cases h

theorem Sound.completed (h : Sound l) {call : PipelineCall} {channel : Nat}
    (hcompletes : channel ∈ (l.pipe.client.completes call).map PendingRequest.responseTx) :
    channel < l.pipe.channels := by
  obtain ⟨request, hmem, rfl⟩ := List.mem_map.mp hcompletes
  obtain ⟨id, hlookup⟩ := pending_of_completes hmem
  exact h.waiting id request hlookup

theorem opens_unique {client : PipelinedClient} {id id' : UInt16}
    (h : id ∈ Pipeline.opens client) (h' : id' ∈ Pipeline.opens client) : id = id' := by
  have hcases := client.send_cases 0 []
  generalize (client.send 0 []).2 = client' at hcases
  generalize Pipeline.opens client = streams at h h' hcases
  cases hcases with
  | refused => cases h
  | waits | takenBack => exact (List.mem_singleton.mp h).trans (List.mem_singleton.mp h').symm

theorem sound_step (h : Sound l) (call : PipelineCall) : Sound (l.step call) := by
  obtain ⟨hle, hlt⟩ := l.pipe.channels_step call
  refine ⟨?_, ?_, ?_, ?_⟩
  · intro id request hlookup
    obtain hold | ⟨⟨data, hsend⟩, rfl, -⟩ := Pipeline.pending_step hlookup
    · exact (h.waiting id request hold).trans_le hle
    · exact hlt data hsend
  · intro channel hfinished
    obtain hold | hnew := (l.pipe.responses_step call).mp hfinished
    · exact (h.responded channel hold).trans_le hle
    · exact (h.completed hnew).trans_le hle
  · intro id channel howner
    obtain ⟨-, hold⟩ | ⟨⟨data, hsend⟩, -, rfl⟩ := owner_step howner
    · exact (h.owned id channel hold).trans_le hle
    · exact hlt data hsend
  · intro id requestId request hlookup howner
    obtain hwaited | ⟨-, rfl, hfree⟩ := Pipeline.pending_step hlookup
    · obtain ⟨-, hold⟩ | ⟨-, -, hnew⟩ := owner_step howner
      · exact h.own id requestId request hwaited hold
      · exact absurd hnew (Nat.ne_of_lt (h.waiting requestId request hwaited))
    · obtain ⟨-, hold⟩ | ⟨-, hopened, -⟩ := owner_step howner
      · exact absurd rfl (Nat.ne_of_lt (h.owned id _ hold))
      · exact opens_unique hfree hopened

theorem tidy_before (hafter : Tidy (l.step call)) {request : PendingRequest}
    (hmem : request ∈ l.pipe.client.completes call)
    (hno : ∀ order streamId data, call ≠ .processResponse order streamId data)
    (howner : l.owner request.streamId = some request.responseTx) :
    l.pipe.client.connection.Released request.streamId := by
  intro state hlookup
  have hheld := MultiplexedConnection.hasStream_of_lookup hlookup
  have hkept : (l.step call).owner request.streamId = some request.responseTx :=
    (if_pos hheld).trans howner
  have hfinished : (l.step call).Finished request.responseTx :=
    (l.pipe.responses_step call).mpr (.inr (List.mem_map_of_mem hmem))
  have hsame := Pipeline.connection_of_completes hmem hno
  exact hafter _ _ hkept hfinished state (hsame ▸ hlookup)

/-- What one call does to the streams of the completed requests. -/
theorem tidy_step_iff (h : Sound l) (htidy : Tidy l) (call : PipelineCall) :
    Tidy (l.step call) ↔ ReleasedBefore l call := by
  constructor
  · intro hafter
    cases call with
    | send | processResponse | connection => trivial
    | processError | cancelAll =>
        intro request hmem howner
        exact tidy_before hafter hmem (fun _ _ _ h => nomatch h) howner
  · intro hbefore id channel howner hfinished
    have hcompleted := (l.pipe.responses_step call).mp hfinished
    obtain ⟨hheld, hold⟩ | ⟨⟨data, rfl⟩, -, rfl⟩ := owner_step howner
    · obtain hdone | hnow := hcompleted
      · exact Pipeline.released_step hheld (htidy id channel hold hdone) call
      · obtain ⟨request, hmem, rfl⟩ := List.mem_map.mp hnow
        obtain ⟨requestId, hlookup⟩ := pending_of_completes hmem
        obtain rfl := h.own id requestId request hlookup hold
        cases call with
        | send | connection => cases hmem
        | processResponse order streamId data => exact Pipeline.released_of_completes hmem
        | processError | cancelAll =>
            exact Pipeline.released_step hheld (hbefore request hmem hold) _
    · obtain hdone | hnow := hcompleted
      · exact absurd (h.responded _ hdone) (Nat.lt_irrefl _)
      · cases hnow

/-- In every run the streams of the completed requests are released all along, exactly when an
error or a cancellation only completes requests whose streams are released already. -/
theorem tidy_iff (connection : MultiplexedConnection) (maxInFlight : UInt64)
    (calls : List PipelineCall) :
    (∀ front, front <+: calls → Tidy (front.foldl step (start connection maxInFlight))) ↔
      EveryStep step ReleasedBefore (start connection maxInFlight) calls := by
  have hsound := sound_start connection maxInFlight
  have htidy : Tidy (start connection maxInFlight) := fun id channel h => nomatch h
  constructor
  · intro hall
    have hstep : ∀ l call, Sound l ∧ Tidy l → Tidy (step l call) →
        ReleasedBefore l call ∧ Sound (step l call) ∧ Tidy (step l call) :=
      fun l call h hnext =>
        ⟨(tidy_step_iff h.1 h.2 call).mp hnext, sound_step h.1 call, hnext⟩
    exact (everyStep_of_prefixes hall).imp hstep ⟨hsound, htidy⟩
  · rintro hrun front ⟨back, rfl⟩
    have hstep : ∀ l call, Sound l ∧ Tidy l → ReleasedBefore l call →
        Sound (step l call) ∧ Tidy (step l call) :=
      fun l call h hok => ⟨sound_step h.1 call, (tidy_step_iff h.1 h.2 call).mpr hok⟩
    exact (hrun.append_left.invariant hstep ⟨hsound, htidy⟩).2

/-- A request that ends with an error keeps its stream open. -/
theorem processError_keeps_open :
    let order : PendingOrder := ⟨id, fun _ => .refl _⟩
    let calls : List PipelineCall := [.send [7], .processError order 1 .connectionClosed]
    let l := calls.foldl step (start (.withLimits 8 65536) 8)
    l.Finished 0 ∧ l.owner 1 = some 0 ∧ l.pipe.client.pending.size = 0 ∧
      (l.pipe.client.connection.streams.lookup 1).map (·.status) = some .open ∧ ¬ Tidy l := by
  intro order calls l
  have howner : l.owner 1 = some 0 := by decide +kernel
  have hfinished : l.Finished 0 := by
    change 0 ∈ l.pipe.responses.map Prod.fst
    decide +kernel
  have hopen : (l.pipe.client.connection.streams.lookup 1).map (·.status.canSend) = some true := by
    decide +kernel
  refine ⟨hfinished, howner, by decide +kernel, by decide +kernel, fun htidy => ?_⟩
  obtain ⟨state, hlookup, hcan⟩ := Option.map_eq_some_iff.mp hopen
  have hclosed := htidy 1 0 howner hfinished state hlookup
  rw [hclosed] at hcan
  cases hcan

end Leased
end Dcp
