import Dcp.Multiplex.Effects
import Dcp.Multiplex.Pipeline

/-!
Responses reach the callers they are for, as long as a request is never sent on a stream, or
under a request id, that another request still waits on. A request keeps its stream when the
remote side resets and finishes it, while the connection gives the id away again.
-/

namespace Dcp
open Library

namespace PipelinedClient
variable {client : PipelinedClient}

theorem takePending_cases (client : PipelinedClient) (order : PendingOrder) (streamId : UInt16) :
    (∃ id request, client.pending.lookup id = some request ∧ request.streamId = streamId ∧
        client.takePending order streamId =
          (some request, { client with pending := client.pending.erase id })) ∨
      ((∀ id request, client.pending.lookup id = some request → request.streamId ≠ streamId) ∧
        client.takePending order streamId = (none, client)) := by
  have hmem : ∀ entry, entry ∈ order.arrange client.pending.toPairs ↔
      client.pending.lookup entry.1 = some entry.2 := by
    intro entry
    rw [(order.perm _).mem_iff]
    exact Table.mem_toPairs_iff
  unfold takePending
  cases hfind : (order.arrange client.pending.toPairs).find? fun entry =>
      entry.2.streamId = streamId with
  | none =>
      refine .inr ⟨fun id request hlookup => ?_, rfl⟩
      have hnot := List.find?_eq_none.mp hfind (id, request) ((hmem (id, request)).mpr hlookup)
      simpa using hnot
  | some entry =>
      obtain ⟨id, request⟩ := entry
      have hlookup := (hmem (id, request)).mp (List.mem_of_find?_eq_some hfind)
      have hstream := List.find?_some hfind
      refine .inl ⟨id, request, hlookup, by simpa using hstream, ?_⟩
      dsimp only
      rw [hlookup]

/-- Below the limit the count in flight does not wrap. -/
theorem inFlight_succ (h : client.inFlight < client.maxInFlight) :
    (client.inFlight + 1).toNat = client.inFlight.toNat + 1 := by
  have hlt := UInt64.lt_iff_toNat_lt.mp h
  have hword := client.maxInFlight.toNat_lt
  rw [UInt64.toNat_add, UInt64.toNat_one]
  exact Nat.mod_eq_of_lt (by omega)

/-- A request is not sent, waits on the stream that was opened for it, or is taken back. -/
inductive Sends (client : PipelinedClient) (channel : Nat) : PipelinedClient → List UInt16 → Prop
  | refused {client' : PipelinedClient} (hpending : client'.pending = client.pending)
      (hcount : client'.inFlight = client.inFlight)
      (hmax : client'.maxInFlight = client.maxInFlight) :
      Sends client channel client' []
  | waits {client' : PipelinedClient} (hroom : client.inFlight < client.maxInFlight)
      (hfree : ¬ client.connection.hasStream client.connection.nextFreeId)
      (hpending : client'.pending =
        client.pending.insert client.requestId ⟨client.connection.nextFreeId, channel⟩)
      (hcount : client'.inFlight = client.inFlight + 1)
      (hmax : client'.maxInFlight = client.maxInFlight) :
      Sends client channel client' [client.connection.nextFreeId]
  | takenBack {client' : PipelinedClient} (hroom : client.inFlight < client.maxInFlight)
      (hpending : client'.pending = client.pending.erase client.requestId)
      (hcount : client'.inFlight = client.inFlight)
      (hmax : client'.maxInFlight = client.maxInFlight) :
      Sends client channel client' [client.connection.nextFreeId]

theorem send_cases (client : PipelinedClient) (channel : Nat) (data : List UInt8) :
    Sends client channel (client.send channel data).2 (Pipeline.opens client) := by
  unfold send Pipeline.opens
  by_cases hroom : client.canSend = true
  · rw [if_neg (not_not.mpr hroom), if_pos hroom]
    obtain ⟨hok, hcreates⟩ | ⟨⟨e, herror⟩, -⟩ := client.connection.openStream_cases
    · obtain ⟨result, connection, hopen⟩ : ∃ result connection,
          client.connection.openStream = (result, connection) := ⟨_, _, rfl⟩
      rw [hopen] at hok
      cases hok
      simp only [hopen]
      split
      · exact .waits (by simpa [canSend] using hroom) hcreates.fresh rfl rfl rfl
      · refine .takenBack (by simpa [canSend] using hroom) ?_ ?_ rfl
        · exact Table.erase_insert _ _ _
        · exact UInt64.add_sub_cancel _ _
    · obtain ⟨result, connection, hopen⟩ : ∃ result connection,
          client.connection.openStream = (result, connection) := ⟨_, _, rfl⟩
      rw [hopen] at herror
      cases herror
      simp only [hopen]
      exact .refused rfl rfl rfl
  · rw [if_pos hroom, if_neg hroom]
    exact .refused rfl rfl rfl

end PipelinedClient

namespace Pipeline
open PipelinedClient
variable {p : Pipeline}

/-- The requests that wait, the streams that were opened for them and the responses so far. -/
structure Sound (p : Pipeline) : Prop where
  count : p.client.inFlight.toNat = p.client.pending.size
  bound : p.client.inFlight ≤ p.client.maxInFlight
  streams : ∀ id id' request request', p.client.pending.lookup id = some request →
    p.client.pending.lookup id' = some request' → request.streamId = request'.streamId → id = id'
  opened : ∀ id request, p.client.pending.lookup id = some request →
    (request.responseTx, request.streamId) ∈ p.opened
  waiting : ∀ id request, p.client.pending.lookup id = some request →
    request.responseTx ∉ p.responses.map Prod.fst
  channels : ∀ entry ∈ p.opened, entry.1 < p.channels
  once : (p.opened.map Prod.fst).Nodup
  responded : ∀ entry ∈ p.responses, entry.1 < p.channels
  answered : (p.responses.map Prod.fst).Nodup

theorem sound_start (connection : MultiplexedConnection) (maxInFlight : UInt64) :
    Sound (start connection maxInFlight) where
  count := rfl
  bound := UInt64.zero_le
  streams id id' request request' h := by cases h
  opened id request h := by cases h
  waiting id request h := by cases h
  channels entry h := by cases h
  once := List.nodup_nil
  responded entry h := by cases h
  answered := List.nodup_nil

/-- Requests that wait for one receiver are one. -/
theorem Sound.receiver_unique (h : Sound p) {id id' : UInt64} {request request' : PendingRequest}
    (hlookup : p.client.pending.lookup id = some request)
    (hlookup' : p.client.pending.lookup id' = some request')
    (hsame : request.responseTx = request'.responseTx) : id = id' := by
  refine h.streams id id' request request' hlookup hlookup' ?_
  have hpair := h.opened id request hlookup
  have hpair' := h.opened id' request' hlookup'
  rw [hsame] at hpair
  have hentry := List.inj_on_of_nodup_map h.once hpair hpair' rfl
  exact congrArg Prod.snd hentry

/-- Some of the waiting requests are answered and leave the table. -/
theorem Sound.answer (h : Sound p) {client : PipelinedClient} {sent : List (Nat × Response)}
    (hpending : ∀ id request, client.pending.lookup id = some request →
      p.client.pending.lookup id = some request ∧ request.responseTx ∉ sent.map Prod.fst)
    (hcount : client.inFlight.toNat = client.pending.size)
    (hbound : client.inFlight ≤ client.maxInFlight)
    (hsent : ∀ entry ∈ sent, ∃ id request, p.client.pending.lookup id = some request ∧
      request.responseTx = entry.1)
    (hnodup : (sent.map Prod.fst).Nodup) :
    Sound { p with client, responses := p.responses ++ sent } where
  count := hcount
  bound := hbound
  streams id id' request request' hlookup hlookup' :=
    h.streams id id' request request' (hpending id request hlookup).1
      (hpending id' request' hlookup').1
  opened id request hlookup := h.opened id request (hpending id request hlookup).1
  waiting id request hlookup := by
    obtain ⟨hbefore, hnot⟩ := hpending id request hlookup
    rw [List.map_append, List.mem_append]
    rintro (hold | hnew)
    · exact h.waiting id request hbefore hold
    · exact hnot hnew
  channels := h.channels
  once := h.once
  responded entry hentry := by
    obtain hold | hnew := List.mem_append.mp hentry
    · exact h.responded entry hold
    · obtain ⟨id, request, hlookup, hchannel⟩ := hsent entry hnew
      rw [← hchannel]
      exact h.channels _ (h.opened id request hlookup)
  answered := by
    rw [List.map_append]
    refine h.answered.append hnodup ?_
    intro channel hold hnew
    obtain ⟨entry, hentry, rfl⟩ := List.mem_map.mp hnew
    obtain ⟨id, request, hlookup, hchannel⟩ := hsent entry hentry
    exact h.waiting id request hlookup (hchannel ▸ hold)

/-- A call of `send` whose request does not stay in the table. -/
theorem Sound.next (h : Sound p) {client : PipelinedClient} {streams : List UInt16}
    (hpending : client.pending = p.client.pending) (hcount : client.inFlight = p.client.inFlight)
    (hmax : client.maxInFlight = p.client.maxInFlight) (hone : streams.length ≤ 1) :
    Sound { p with
      client, channels := p.channels + 1, opened := p.opened ++ streams.map (p.channels, ·) } where
  count := by rw [hpending, hcount]; exact h.count
  bound := by rw [hcount, hmax]; exact h.bound
  streams := by rw [hpending]; exact h.streams
  opened id request hlookup := by
    rw [hpending] at hlookup
    exact List.mem_append_left _ (h.opened id request hlookup)
  waiting := by rw [hpending]; exact h.waiting
  channels entry hentry := by
    obtain hold | hnew := List.mem_append.mp hentry
    · exact Nat.lt_succ_of_lt (h.channels entry hold)
    · obtain ⟨stream, -, rfl⟩ := List.mem_map.mp hnew
      exact Nat.lt_succ_self _
  once := by
    have hnew : ((streams.map (p.channels, ·)).map Prod.fst).Nodup := by
      cases streams with
      | nil => exact List.nodup_nil
      | cons stream rest =>
          have hrest : rest = [] := List.eq_nil_of_length_eq_zero (Nat.le_zero.mp
            (Nat.le_of_succ_le_succ hone))
          subst hrest
          exact List.nodup_singleton _
    rw [List.map_append]
    refine h.once.append hnew ?_
    intro channel hold hfresh
    obtain ⟨entry, hentry, rfl⟩ := List.mem_map.mp hold
    have hlt := h.channels entry hentry
    rw [List.map_map] at hfresh
    obtain ⟨stream, -, hchannel⟩ := List.mem_map.mp hfresh
    exact absurd hchannel (Nat.ne_of_gt hlt)
  responded entry hentry := Nat.lt_succ_of_lt (h.responded entry hentry)
  answered := h.answered

/-- A request that waits on a stream that no other request waits on. -/
theorem Sound.wait (h : Sound p) {client : PipelinedClient} {streamId : UInt16}
    (hroom : p.client.inFlight < p.client.maxInFlight)
    (hpending : client.pending = p.client.pending.insert p.client.requestId ⟨streamId, p.channels⟩)
    (hcount : client.inFlight = p.client.inFlight + 1)
    (hmax : client.maxInFlight = p.client.maxInFlight)
    (hfree : p.client.pending.lookup p.client.requestId = none)
    (hstream : ∀ id request, p.client.pending.lookup id = some request →
      request.streamId ≠ streamId) :
    Sound { p with
      client, channels := p.channels + 1, opened := p.opened ++ [(p.channels, streamId)] } := by
  have hbase : Sound { p with
      channels := p.channels + 1, opened := p.opened ++ [streamId].map (p.channels, ·) } :=
    h.next rfl rfl rfl (Nat.le_refl 1)
  have hlookup : ∀ id request, client.pending.lookup id = some request →
      (id = p.client.requestId ∧ request = ⟨streamId, p.channels⟩) ∨
        p.client.pending.lookup id = some request := by
    intro id request hfound
    rw [hpending, Table.lookup_insert_eq] at hfound
    split at hfound
    · next hid => exact .inl ⟨hid, (Option.some.inj hfound).symm⟩
    · exact .inr hfound
  have hlt := UInt64.lt_iff_toNat_lt.mp hroom
  have hsucc := inFlight_succ hroom
  refine ⟨?_, ?_, ?_, ?_, ?_, hbase.channels, hbase.once, hbase.responded, hbase.answered⟩
  · change client.inFlight.toNat = client.pending.size
    rw [hcount, hsucc, h.count, hpending]
    exact (Table.size_insert_of_lookup_none _ hfree).symm
  · change client.inFlight ≤ client.maxInFlight
    rw [hcount, hmax, UInt64.le_iff_toNat_le, hsucc]
    exact hlt
  · intro id id' request request' hfound hfound' hsame
    obtain ⟨rfl, rfl⟩ | hold := hlookup id request hfound
    · obtain ⟨rfl, -⟩ | hold' := hlookup id' request' hfound'
      · rfl
      · exact absurd hsame.symm (hstream id' request' hold')
    · obtain ⟨rfl, rfl⟩ | hold' := hlookup id' request' hfound'
      · exact absurd hsame (hstream id request hold)
      · exact h.streams id id' request request' hold hold' hsame
  · intro id request hfound
    obtain ⟨rfl, rfl⟩ | hold := hlookup id request hfound
    · exact List.mem_append_right _ (List.mem_singleton_self _)
    · exact List.mem_append_left _ (h.opened id request hold)
  · intro id request hfound
    obtain ⟨rfl, rfl⟩ | hold := hlookup id request hfound
    · intro hresponded
      obtain ⟨entry, hentry, hchannel⟩ := List.mem_map.mp hresponded
      have hbefore := h.responded entry hentry
      rw [hchannel] at hbefore
      exact Nat.lt_irrefl _ hbefore
    · exact h.waiting id request hold

/-- A call of `send` draws a request id and a stream id that no waiting request holds. -/
def SendsUnheld (p : Pipeline) : PipelineCall → Prop
  | .send _ => p.client.canSend = true →
      p.client.pending.lookup p.client.requestId = none ∧
        (¬ p.client.connection.hasStream p.client.connection.nextFreeId →
          ∀ entry ∈ p.client.pending.toPairs,
            entry.2.streamId ≠ p.client.connection.nextFreeId)
  | _ => True

instance (p : Pipeline) : (call : PipelineCall) → Decidable (p.SendsUnheld call)
  | .send _ => inferInstanceAs (Decidable (p.client.canSend = true →
      p.client.pending.lookup p.client.requestId = none ∧
        (¬ p.client.connection.hasStream p.client.connection.nextFreeId →
          ∀ entry ∈ p.client.pending.toPairs,
            entry.2.streamId ≠ p.client.connection.nextFreeId)))
  | .processResponse .. | .processError .. | .cancelAll _ | .connection _ => .isTrue trivial

theorem Sound.send (h : Sound p) (data : List UInt8) (hunheld : p.SendsUnheld (.send data)) :
    Sound (p.step (.send data)) := by
  have hcases := p.client.send_cases p.channels data
  simp only [step]
  generalize (p.client.send p.channels data).2 = client at hcases ⊢
  generalize hopens : opens p.client = streams at hcases ⊢
  cases hcases with
  | refused hpending hcount hmax => exact h.next hpending hcount hmax (Nat.zero_le _)
  | waits hroom hfree hpending hcount hmax =>
      obtain ⟨hid, hstream⟩ := hunheld (by simpa [canSend] using hroom)
      refine h.wait hroom hpending hcount hmax hid ?_
      intro id request hlookup
      exact hstream hfree (id, request) (Table.mem_toPairs_iff.mpr hlookup)
  | takenBack hroom hpending hcount hmax =>
      obtain ⟨hid, -⟩ := hunheld (by simpa [canSend] using hroom)
      rw [Table.erase_of_lookup_none hid] at hpending
      exact h.next hpending hcount hmax (Nat.le_refl _)

/-- One waiting request leaves the table with a response. -/
theorem Sound.answerOne (h : Sound p) {client : PipelinedClient} {id : UInt64}
    {request : PendingRequest} {response : Response}
    (hlookup : p.client.pending.lookup id = some request)
    (hpending : client.pending = p.client.pending.erase id)
    (hcount : client.inFlight = p.client.inFlight - 1)
    (hmax : client.maxInFlight = p.client.maxInFlight) :
    Sound { p with client, responses := p.responses ++ [(request.responseTx, response)] } := by
  have hsize := Table.size_erase_of_lookup_some hlookup
  have hcount' := h.count
  have hone : (1 : UInt64) ≤ p.client.inFlight := by
    rw [UInt64.le_iff_toNat_le, UInt64.toNat_one]
    omega
  have hpred : client.inFlight.toNat = p.client.inFlight.toNat - 1 := by
    rw [hcount, UInt64.toNat_sub_of_le _ _ hone, UInt64.toNat_one]
  refine h.answer ?_ ?_ ?_ ?_ (List.nodup_singleton _)
  · intro id' request' hfound
    rw [hpending, Table.lookup_erase_eq] at hfound
    split at hfound
    · cases hfound
    · next hne =>
        refine ⟨hfound, fun hmem => ?_⟩
        rw [List.map_singleton, List.mem_singleton] at hmem
        exact hne (h.receiver_unique hfound hlookup hmem)
  · rw [hpred, hpending]
    omega
  · have hbound := UInt64.le_iff_toNat_le.mp h.bound
    rw [hmax, UInt64.le_iff_toNat_le, hpred]
    omega
  · intro entry hentry
    rw [List.mem_singleton] at hentry
    subst hentry
    exact ⟨id, request, hlookup, rfl⟩

/-- A call that answers nothing. -/
theorem Sound.answerNone (h : Sound p) {client : PipelinedClient}
    (hpending : client.pending = p.client.pending) (hcount : client.inFlight = p.client.inFlight)
    (hmax : client.maxInFlight = p.client.maxInFlight) :
    Sound { p with client, responses := p.responses ++ [] } := by
  refine h.answer ?_ ?_ ?_ ?_ List.nodup_nil
  · rw [hpending]
    exact fun id request hlookup => ⟨hlookup, List.not_mem_nil⟩
  · rw [hpending, hcount]
    exact h.count
  · rw [hcount, hmax]
    exact h.bound
  · intro entry hentry
    cases hentry

theorem Sound.cancelAll (h : Sound p) (order : PendingOrder) :
    Sound (p.step (.cancelAll order)) := by
  have hmem : ∀ entry, entry ∈ order.arrange p.client.pending.toPairs ↔
      p.client.pending.lookup entry.1 = some entry.2 := by
    intro entry
    rw [(order.perm _).mem_iff]
    exact Table.mem_toPairs_iff
  refine h.answer ?_ rfl UInt64.zero_le ?_ ?_
  · intro id request hlookup
    cases hlookup
  · intro entry hentry
    obtain ⟨waiting, hwaiting, rfl⟩ := List.mem_map.mp hentry
    exact ⟨waiting.1, waiting.2, (hmem waiting).mp hwaiting, rfl⟩
  · rw [List.map_map]
    refine List.Nodup.map_on ?_ ((order.perm _).nodup_iff.mpr p.client.pending.nodup_toPairs)
    intro a ha b hb hsame
    have hid := h.receiver_unique ((hmem a).mp ha) ((hmem b).mp hb) hsame
    have hrequest := (hmem a).mp ha
    rw [hid, (hmem b).mp hb] at hrequest
    exact Prod.ext hid (Option.some.inj hrequest).symm

theorem sound_step (h : Sound p) {call : PipelineCall} (hunheld : p.SendsUnheld call) :
    Sound (p.step call) := by
  cases call with
  | send data => exact h.send data hunheld
  | processResponse order streamId data =>
      obtain ⟨id, request, hlookup, -, htake⟩ | ⟨-, htake⟩ :=
        p.client.takePending_cases order streamId
      · simp only [step, processResponse, htake]
        exact h.answerOne hlookup rfl rfl rfl
      · simp only [step, processResponse, htake]
        exact h.answerNone rfl rfl rfl
  | processError order streamId error =>
      obtain ⟨id, request, hlookup, -, htake⟩ | ⟨-, htake⟩ :=
        p.client.takePending_cases order streamId
      · simp only [step, processError, htake]
        exact h.answerOne hlookup rfl rfl rfl
      · simp only [step, processError, htake]
        exact h.answerNone rfl rfl rfl
  | cancelAll order => exact h.cancelAll order
  | connection call =>
      exact ⟨h.count, h.bound, h.streams, h.opened, h.waiting, h.channels, h.once, h.responded,
        h.answered⟩

theorem maxInFlight_step (p : Pipeline) (call : PipelineCall) :
    (p.step call).client.maxInFlight = p.client.maxInFlight := by
  cases call with
  | send data =>
      have hcases := p.client.send_cases p.channels data
      simp only [step]
      generalize (p.client.send p.channels data).2 = client at hcases ⊢
      generalize opens p.client = streams at hcases
      cases hcases with
      | refused _ _ hmax => exact hmax
      | waits _ _ _ _ hmax => exact hmax
      | takenBack _ _ _ hmax => exact hmax
  | processResponse order streamId data =>
      obtain ⟨_, _, _, _, htake⟩ | ⟨_, htake⟩ := p.client.takePending_cases order streamId <;>
        simp only [step, processResponse, htake]
  | processError order streamId error =>
      obtain ⟨_, _, _, _, htake⟩ | ⟨_, htake⟩ := p.client.takePending_cases order streamId <;>
        simp only [step, processError, htake]
  | cancelAll order => rfl
  | connection call => rfl

/-- In every run whose requests draw ids that no waiting request holds, the count in flight is
that of the waiting requests and within the limit, no two of them wait on one stream, no
receiver gets two responses, and a response goes to the request its stream was opened for. -/
theorem responses_reach_callers (connection : MultiplexedConnection) (maxInFlight : UInt64)
    (calls : List PipelineCall)
    (hrun : EveryStep step SendsUnheld (start connection maxInFlight) calls) :
    let p := calls.foldl step (start connection maxInFlight)
    p.client.inFlight.toNat = p.client.pending.size ∧
      p.client.inFlight ≤ maxInFlight ∧
      (∀ id id' request request', p.client.pending.lookup id = some request →
        p.client.pending.lookup id' = some request' →
          request.streamId = request'.streamId → id = id') ∧
      (p.responses.map Prod.fst).Nodup ∧
      ∀ order streamId data, let after := p.client.processResponse order streamId data
        (∃ id request, p.client.pending.lookup id = some request ∧
          request.streamId = streamId ∧ (request.responseTx, streamId) ∈ p.opened ∧
          after.2.1.pending = p.client.pending.erase id ∧
          after.2.2 = [(request.responseTx, .ok data)]) ∨
        ((∀ id request, p.client.pending.lookup id = some request →
            request.streamId ≠ streamId) ∧
          after.2.1.pending = p.client.pending ∧ after.2.2 = []) := by
  intro p
  have hstep : ∀ (p : Pipeline) call, Sound p → p.SendsUnheld call → Sound (p.step call) :=
    fun _ _ h => sound_step h
  have hsound : Sound p := hrun.invariant hstep (sound_start _ _)
  have hkeep : ∀ (p : Pipeline) call, p.client.maxInFlight = maxInFlight →
      (p.step call).client.maxInFlight = maxInFlight :=
    fun p call h => (p.maxInFlight_step call).trans h
  have hmax : p.client.maxInFlight = maxInFlight := invariant_foldl hkeep rfl calls
  refine ⟨hsound.count, hmax ▸ hsound.bound, hsound.streams, hsound.answered, ?_⟩
  intro order streamId data
  obtain ⟨id, request, hlookup, rfl, htake⟩ | ⟨hnone, htake⟩ :=
    p.client.takePending_cases order streamId
  · left
    refine ⟨id, request, hlookup, rfl, hsound.opened id request hlookup, ?_, ?_⟩
    · rw [processResponse, htake]
    · rw [processResponse, htake]
  · right
    refine ⟨hnone, ?_, ?_⟩
    · rw [processResponse, htake]
    · rw [processResponse, htake]

/-- Two requests wait, and the response on the second one's stream goes to the second. -/
theorem responses_reach_callers_two :
    let p := [PipelineCall.send [1], .send [2]].foldl step (start (.withLimits 8 8) 8)
    (p.client.processResponse ⟨id, fun _ => .refl _⟩ 2 [7]).2.2 = [(1, .ok [7])] := by
  intro p
  have hrun : EveryStep step SendsUnheld (start (.withLimits 8 8) 8) [.send [1], .send [2]] := by
    decide +kernel
  obtain ⟨-, -, -, -, hanswer⟩ := responses_reach_callers _ _ _ hrun
  have hlookup : p.client.pending.lookup 2 = some ⟨2, 1⟩ := by decide +kernel
  obtain ⟨id, request, -, -, hopened, -, hsent⟩ | ⟨hnone, -⟩ :=
    hanswer ⟨id, fun _ => .refl _⟩ 2 [7]
  · have hreceiver : ∀ entry ∈ p.opened, entry.2 = 2 → entry.1 = 1 := by decide +kernel
    have htx : request.responseTx = 1 := hreceiver _ hopened rfl
    rw [hsent, htx]
  · exact absurd rfl (hnone 2 ⟨2, 1⟩ hlookup)

end Pipeline

namespace MultiplexedConnection
variable {c : MultiplexedConnection} {id : UInt16}

theorem registerStream_ok (hopen : c.closed = false) (hfree : c.streams.lookup id = none)
    (hroom : c.sendQueue.length < c.maxSendQueueLen) (header : StreamHeader) :
    c.registerStream id header = (.ok (), { c with
      streams := c.streams.insert id (.new id)
      sendQueue := c.sendQueue ++ [(header, [])]
      streamCount := c.streamCount + 1 }) := by
  unfold registerStream
  rw [if_neg (by simp [hasStream, hfree])]
  simp only [queueFrame, hopen, Bool.false_eq_true, if_false, ge_iff_le, Nat.not_le.mpr hroom]

theorem openStream_ok (hopen : c.closed = false) (hcount : c.streamCount < maxStreams)
    (hnext : c.nextFreeId = id) (hid : id ≠ 0) (hfree : c.streams.lookup id = none)
    (hroom : c.sendQueue.length < c.maxSendQueueLen) :
    c.openStream = (.ok id, { c with
      streams := c.streams.insert id (.new id)
      nextStreamId := (allocateStreamId c.nextStreamId).2
      sendQueue := c.sendQueue ++ [(.syn id, [])]
      streamCount := c.streamCount + 1 }) := by
  have hregistered := registerStream_ok
    (c := { c with nextStreamId := (allocateStreamId c.nextStreamId).2 }) hopen hfree hroom
    (.syn id)
  unfold nextFreeId at hnext
  unfold openStream
  rw [if_neg (by simp [hopen]), if_neg (UInt16.not_le.mpr hcount)]
  simp only [hnext, hid, if_false, hregistered]
  rfl

theorem send_ok {state : StreamState} (hopen : c.closed = false)
    (hlookup : c.streams.lookup id = some state) (hstatus : state.status = .open)
    (hroom : c.sendQueue.length < c.maxSendQueueLen) (data : List UInt8) :
    c.send id data = (.ok (), { c with
      streams := c.streams.insert id { state with sendBuffer := state.sendBuffer ++ [data] }
      sendQueue := c.sendQueue ++ [(.data id (.ofNat data.length), data)] }) := by
  have hqueued : state.queueSend data =
      .ok { state with sendBuffer := state.sendBuffer ++ [data] } := by
    unfold StreamState.queueSend
    rw [hstatus]
    rfl
  unfold send
  rw [if_neg (by simp [hopen])]
  simp only [hlookup, hqueued, queueFrame, setStream, hopen, Bool.false_eq_true, if_false,
    ge_iff_le, Nat.not_le.mpr hroom]

end MultiplexedConnection

namespace Pipeline
open MultiplexedConnection

/-- A call of `send` that opens the stream of an id. -/
structure Opens (id : UInt16) (p p' : Pipeline) : Prop where
  pending : p'.client.pending = p.client.pending.insert p.client.requestId ⟨id, p.channels⟩
  inFlight : p'.client.inFlight = p.client.inFlight + 1
  maxInFlight : p'.client.maxInFlight = p.client.maxInFlight
  requestId : p'.client.requestId = p.client.requestId + 1
  closed : p'.client.connection.closed = p.client.connection.closed
  nextStreamId : p'.client.connection.nextStreamId =
    (allocateStreamId p.client.connection.nextStreamId).2
  streams : ∀ a, a ≠ id →
    p'.client.connection.streams.lookup a = p.client.connection.streams.lookup a
  streamCount : p'.client.connection.streamCount = p.client.connection.streamCount + 1
  sendQueue : p'.client.connection.sendQueue.length = p.client.connection.sendQueue.length + 2
  maxSendQueueLen : p'.client.connection.maxSendQueueLen = p.client.connection.maxSendQueueLen
  channels : p'.channels = p.channels + 1

theorem send_opens {p : Pipeline} {id : UInt16} (hroom : p.client.canSend = true)
    (hopen : p.client.connection.closed = false)
    (hcount : p.client.connection.streamCount < maxStreams)
    (hnext : p.client.connection.nextFreeId = id) (hid : id ≠ 0)
    (hfree : p.client.connection.streams.lookup id = none)
    (hqueue : p.client.connection.sendQueue.length + 2 ≤ p.client.connection.maxSendQueueLen) :
    Opens id p (p.step (.send [])) := by
  have hopened := openStream_ok hopen hcount hnext hid hfree (by omega)
  generalize hconnection : ({ p.client.connection with
    streams := p.client.connection.streams.insert id (.new id)
    nextStreamId := (allocateStreamId p.client.connection.nextStreamId).2
    sendQueue := p.client.connection.sendQueue ++ [(.syn id, [])]
    streamCount := p.client.connection.streamCount + 1 } : MultiplexedConnection) =
      connection at hopened
  have hlookup : connection.streams.lookup id = some (.new id) := by
    rw [← hconnection]
    exact AList.lookup_insert _
  have hlength : connection.sendQueue.length = p.client.connection.sendQueue.length + 1 := by
    rw [← hconnection]
    exact List.length_append
  have hsent := send_ok (by rw [← hconnection]; exact hopen) hlookup rfl
    (by rw [hlength, ← hconnection]; exact hqueue) []
  simp only [step, PipelinedClient.send, hroom, not_true_eq_false, if_false, hopened, hsent]
  refine ⟨rfl, rfl, rfl, rfl, ?_, ?_, ?_, ?_, ?_, ?_, rfl⟩
  · rw [← hconnection]
  · rw [← hconnection]
  · intro a ha
    rw [← hconnection]
    change (AList.insert id _ (AList.insert id _ _)).lookup a = _
    rw [AList.lookup_insert_ne ha, AList.lookup_insert_ne ha]
  · rw [← hconnection]
  · change (connection.sendQueue ++ _).length = _
    rw [List.length_append, hlength]
    rfl
  · rw [← hconnection]

/-- The stream of the first request is reset and finished by the remote side; after it come so
many requests that nobody answers. -/
def reuse (n : Nat) : List PipelineCall :=
  [.send [], .connection (.processFrame (.rst 1) []), .connection (.processFrame (.fin 1) [])] ++
    List.replicate n (.send [])

def reuseStart : Pipeline := start (.withLimits 262144 65536) 262144

theorem reuse_succ (n : Nat) (p : Pipeline) :
    (reuse (n + 1)).foldl step p = ((reuse n).foldl step p).step (.send []) := by
  unfold reuse
  rw [List.replicate_succ', ← List.append_assoc, List.foldl_append]
  rfl

/-- The first request still waits, and its stream is free again. -/
structure Reusing (n : Nat) (p : Pipeline) : Prop where
  first : p.client.pending.lookup 1 = some ⟨1, 0⟩
  inFlight : p.client.inFlight.toNat = n + 1
  maxInFlight : p.client.maxInFlight = 262144
  requestId : p.client.requestId.toNat = n + 2
  closed : p.client.connection.closed = false
  nextStreamId : p.client.connection.nextStreamId = .ofNat (n + 2)
  free : ∀ id, id = 1 ∨ n + 2 ≤ id.toNat → p.client.connection.streams.lookup id = none
  streamCount : p.client.connection.streamCount.toNat = n
  sendQueue : p.client.connection.sendQueue.length = 2 * n + 2
  maxSendQueueLen : p.client.connection.maxSendQueueLen = 262144
  channels : p.channels = n + 1

theorem Reusing.opens {n : Nat} {p : Pipeline} (h : Reusing n p) (hn : n ≤ 65534) {id : UInt16}
    (hnext : p.client.connection.nextFreeId = id) (hid : id ≠ 0)
    (hfree : p.client.connection.streams.lookup id = none) :
    Opens id p (p.step (.send [])) := by
  refine send_opens ?_ h.closed ?_ hnext hid hfree ?_
  · have hlt : p.client.inFlight < p.client.maxInFlight := by
      rw [UInt64.lt_iff_toNat_lt, h.inFlight, h.maxInFlight]
      change n + 1 < 262144
      omega
    simpa [PipelinedClient.canSend] using hlt
  · rw [UInt16.lt_iff_toNat_lt, h.streamCount]
    change n < 65535
    omega
  · rw [h.sendQueue, h.maxSendQueueLen]
    omega

theorem Reusing.step {n : Nat} {p : Pipeline} (h : Reusing n p) (hn : n + 2 ≤ 65535) :
    Reusing (n + 1) (p.step (.send [])) := by
  have hid : (UInt16.ofNat (n + 2)).toNat = n + 2 := Nat.mod_eq_of_lt (by omega)
  have hne : UInt16.ofNat (n + 2) ≠ 0 := by
    intro hzero
    rw [hzero] at hid
    cases hid
  have hallocate : allocateStreamId p.client.connection.nextStreamId =
      (.ofNat (n + 2), .ofNat (n + 2) + 1) := by
    unfold allocateStreamId
    rw [h.nextStreamId, if_neg hne]
  have hopens := h.opens (by omega) (congrArg Prod.fst hallocate) hne
    (h.free _ (.inr (Nat.le_of_eq hid.symm)))
  refine ⟨?_, ?_, hopens.maxInFlight.trans h.maxInFlight, ?_, hopens.closed.trans h.closed, ?_, ?_,
    ?_, ?_, hopens.maxSendQueueLen.trans h.maxSendQueueLen, ?_⟩
  · have hrequest : (1 : UInt64) ≠ p.client.requestId := by
      intro hsame
      have hbad := h.requestId
      rw [← hsame, UInt64.toNat_one] at hbad
      omega
    rw [hopens.pending, AList.lookup_insert_ne hrequest]
    exact h.first
  · rw [hopens.inFlight, UInt64.toNat_add, h.inFlight, UInt64.toNat_one]
    exact Nat.mod_eq_of_lt (by omega)
  · rw [hopens.requestId, UInt64.toNat_add, h.requestId, UInt64.toNat_one]
    exact Nat.mod_eq_of_lt (by omega)
  · rw [hopens.nextStreamId, hallocate]
    exact (UInt16.ofNat_add (n + 2) 1).symm
  · intro id hfree
    have hother : id ≠ .ofNat (n + 2) := by
      rintro rfl
      obtain hone | hge := hfree
      · have hbad := congrArg UInt16.toNat hone
        rw [hid, UInt16.toNat_one] at hbad
        omega
      · omega
    rw [hopens.streams id hother]
    exact h.free id (hfree.imp_right fun hge => by omega)
  · rw [hopens.streamCount, UInt16.toNat_add, h.streamCount, UInt16.toNat_one]
    exact Nat.mod_eq_of_lt (by omega)
  · rw [hopens.sendQueue, h.sendQueue]
    omega
  · rw [hopens.channels, h.channels]

theorem reusing (n : Nat) (hn : n ≤ 65534) : Reusing n ((reuse n).foldl step reuseStart) := by
  induction n with
  | zero =>
      have hstreams : ((reuse 0).foldl step reuseStart).client.connection.streams = ∅ := by
        refine AList.ext ?_
        decide +kernel
      refine ⟨by decide +kernel, by decide +kernel, by decide +kernel, by decide +kernel,
        by decide +kernel, by decide +kernel, ?_, by decide +kernel, by decide +kernel,
        by decide +kernel, by decide +kernel⟩
      intro id _
      rw [hstreams]
      rfl
  | succ n ih =>
      rw [reuse_succ]
      exact (ih (by omega)).step (by omega)

theorem Reusing.collides {p : Pipeline} (h : Reusing 65534 p) :
    (p.step (.send [])).client.pending.lookup 1 = some ⟨1, 0⟩ ∧
      (p.step (.send [])).client.pending.lookup 65536 = some ⟨1, 65535⟩ := by
  have hnext : p.client.connection.nextFreeId = 1 := by
    unfold nextFreeId
    rw [h.nextStreamId]
    decide
  have hopens := h.opens (Nat.le_refl _) hnext (by decide) (h.free 1 (.inl rfl))
  have hrequest : p.client.requestId = 65536 := UInt64.toNat_inj.mp h.requestId
  rw [hopens.pending, hrequest, h.channels]
  refine ⟨?_, AList.lookup_insert _⟩
  rw [AList.lookup_insert_ne (by decide)]
  exact h.first

/-- Two requests wait on the stream 1. -/
theorem streams_collide :
    ((reuse 65535).foldl step reuseStart).client.pending.lookup 1 = some ⟨1, 0⟩ ∧
      ((reuse 65535).foldl step reuseStart).client.pending.lookup 65536 = some ⟨1, 65535⟩ := by
  rw [reuse_succ 65534]
  exact (reusing 65534 (Nat.le_refl _)).collides

end Pipeline
end Dcp
