import Dcp.Multiplex.Moves

/-!
Streams that both sides have closed. A FIN frame removes a stream whose local side is closed;
a local close does not remove a stream whose remote side is closed, so its entry stays in the
table as closed. The counter of streams is the size of the table either way.
-/

namespace Dcp
open Library

namespace Monitored
open MultiplexedConnection
variable {id : UInt16} {m : Monitored} {call : ConnectionCall}

/-- The counter of streams is the size of the table. -/
def Counted (conn : MultiplexedConnection) : Prop :=
  conn.streamCount.toNat = conn.streams.size

theorem counted_step (h : Counted m.conn) : Counted (m.step call).conn := by
  have hmoves := m.step_moves call
  generalize m.step call = m' at hmoves ⊢
  cases hmoves with
  | quiet hsame =>
      unfold Counted
      rw [hsame.streams, hsame.streamCount]
      exact h
  | @creates conn a ha hopen hroom hfree hsame =>
      have hsize : conn.streams.size = m.conn.streams.size + 1 := by
        rw [hsame.streams]
        exact Table.size_insert_of_lookup_none _ hfree
      have hcount : conn.streamCount = m.conn.streamCount + 1 := hsame.streamCount
      have hlt : m.conn.streamCount.toNat < 65535 := UInt16.lt_iff_toNat_lt.mp hroom
      change conn.streamCount.toNat = conn.streams.size
      rw [hcount, hsize, ← h, UInt16.toNat_add, UInt16.toNat_one]
      exact Nat.mod_eq_of_lt (by omega)
  | @stores conn a state state' history' hfound hstores hsame =>
      have hsize : conn.streams.size = m.conn.streams.size := by
        rw [hsame.streams]
        exact Table.size_insert_of_lookup_some _ hfound
      have hcount : conn.streamCount = m.conn.streamCount := hsame.streamCount
      change conn.streamCount.toNat = conn.streams.size
      rw [hcount, hsize]
      exact h
  | @removes conn a state history' hfound hremoves hsame =>
      have hsize : conn.streams.size + 1 = m.conn.streams.size := by
        rw [hsame.streams]
        exact Table.size_erase_of_lookup_some hfound
      have hcount : conn.streamCount = m.conn.streamCount - 1 := hsame.streamCount
      have hone : (1 : UInt16) ≤ m.conn.streamCount := by
        rw [UInt16.le_iff_toNat_le, h, ← hsize, UInt16.toNat_one]
        exact Nat.le_add_left _ _
      change conn.streamCount.toNat = conn.streams.size
      rw [hcount, UInt16.toNat_sub_of_le _ _ hone, h, ← hsize, UInt16.toNat_one]
      exact Nat.add_sub_cancel _ _
  | closes hcall => rfl

/-- A stream is not closed locally after a FIN frame of it was processed. -/
def ClosesBeforeFin (m : Monitored) : ConnectionCall → Prop
  | .closeStream id => m.conn.hasStream id → (m.history id).remoteClosed = false
  | _ => True

instance (m : Monitored) (call : ConnectionCall) : Decidable (ClosesBeforeFin m call) :=
  match call with
  | .closeStream _ => inferInstanceAs (Decidable (_ → _))
  | .openStream | .acceptStream _ | .send .. | .recv _ | .resetStream .. | .processFrame ..
  | .rollbackStreamOpen _ | .takeFrame | .close => .isTrue trivial

/-- The status of an entry is that of its half-closes, and not both happened. -/
structure HalfOpen (status : StreamStatus) (history : StreamHistory) : Prop where
  notClosed : status ≠ .closed
  localClosed : history.localClosed = true → status = .halfClosedLocal ∨ status = .reset
  remoteClosed : status = .halfClosedRemote → history.remoteClosed = true
  one : history.localClosed = true → history.remoteClosed = false

theorem halfOpen_new : HalfOpen .open .new :=
  ⟨by decide, by decide, by decide, by decide⟩

/-- Both half-closes of an entry. -/
theorem HalfOpen.stores {limit : Nat} {state state' : StreamState}
    {history history' : StreamHistory} (h : HalfOpen state.status history)
    (hstores : Stores limit call id state history state' history')
    (hlocal : call = .closeStream id → history.remoteClosed = false) :
    HalfOpen state'.status history' := by
  cases hstores with
  | sends buffer => exact h
  | delivers hstatus =>
      rw [state.status_takeRecv]
      exact ⟨h.notClosed, h.localClosed, h.remoteClosed, h.one⟩
  | accepts payload hqueued =>
      obtain ⟨-, rfl⟩ := StreamState.queueRecv_eq_ok hqueued
      exact ⟨h.notClosed, h.localClosed, h.remoteClosed, h.one⟩
  | closesLocal hcall =>
      have hremote := hlocal hcall
      have hnot : state.status ≠ .halfClosedRemote := by
        intro hstatus
        rw [h.remoteClosed hstatus] at hremote
        cases hremote
      have hclosed := h.notClosed
      refine ⟨?_, fun _ => ?_, ?_, fun _ => hremote⟩ <;>
        · unfold StreamState.closeLocal
          cases hstatus : state.status <;> simp_all
  | closesRemote hopen =>
      have hlocal : history.localClosed = false := by
        by_contra hclosed
        have hboth : state.closeRemote.status.isClosed = true := by
          unfold StreamState.closeRemote
          obtain hstatus | hstatus := h.localClosed (by simpa using hclosed)
          · rw [hstatus]
            rfl
          · rw [hstatus]
            rfl
        rw [hboth] at hopen
        cases hopen
      refine ⟨?_, fun hclosed => ?_, fun _ => rfl, fun hclosed => ?_⟩
      · intro hstatus
        rw [hstatus] at hopen
        cases hopen
      · exact absurd hclosed (by simp [hlocal])
      · exact absurd hclosed (by simp [hlocal])
  | resets error =>
      exact ⟨StreamStatus.noConfusion, fun _ => .inr rfl, StreamStatus.noConfusion, h.one⟩

/-- Every entry of the table is half open. -/
def Entries (m : Monitored) : Prop :=
  ∀ id state, m.conn.streams.lookup id = some state → HalfOpen state.status (m.history id)

theorem entries_step (h : Entries m) (hclose : ClosesBeforeFin m call) :
    Entries (m.step call) := by
  have hmoves := m.step_moves call
  generalize m.step call = m' at hmoves ⊢
  intro id state hstate
  cases hmoves with
  | quiet hsame => exact h id state (hsame.lookup id ▸ hstate)
  | creates a ha hopen hroom hfree hsame =>
      have hlookup := (hsame.lookup_withNewStream id).symm.trans hstate
      rw [history_note]
      split at hlookup
      · next hid =>
          rw [if_pos hid]
          cases hlookup
          exact halfOpen_new
      · next hid =>
          rw [if_neg hid]
          exact h id state hlookup
  | @stores conn a before after history' hfound hstores hsame =>
      have hlookup := (hsame.lookup_setStream id).symm.trans hstate
      rw [history_note]
      split at hlookup
      · next hid =>
          rw [if_pos hid]
          cases hlookup
          refine (h a before hfound).stores hstores ?_
          rintro rfl
          exact hclose (by simp [hasStream, hfound])
      · next hid =>
          rw [if_neg hid]
          exact h id state hlookup
  | @removes conn a before history' hfound hremoves hsame =>
      have hlookup := (hsame.lookup_withoutStream id).symm.trans hstate
      rw [history_note]
      split at hlookup
      · cases hlookup
      · next hid =>
          rw [if_neg hid]
          exact h id state hlookup
  | closes hcall => cases hstate

/-- In every run that closes no stream locally after its FIN frame, no entry is closed, a stream
that both sides have closed is gone from the table, and the counter is the size of the table. -/
theorem closed_streams_released (maxSendQueueLen maxRecvBufferBytes : Nat)
    (calls : List ConnectionCall)
    (hrun : EveryStep step ClosesBeforeFin (start maxSendQueueLen maxRecvBufferBytes) calls) :
    let m := calls.foldl step (start maxSendQueueLen maxRecvBufferBytes)
    (∀ id state, m.conn.streams.lookup id = some state → state.status ≠ .closed) ∧
      (∀ id, (m.history id).localClosed = true → (m.history id).remoteClosed = true →
        ¬ m.conn.hasStream id) ∧
      m.conn.streamCount.toNat = m.conn.streams.size := by
  intro m
  have hentries : Entries m := by
    refine hrun.invariant (fun _ _ => entries_step) ?_
    intro id state hstate
    cases hstate
  have hstep : ∀ m call, Counted m.conn → Counted (Monitored.step m call).conn :=
    fun _ _ => counted_step
  have hstart : Counted (start maxSendQueueLen maxRecvBufferBytes).conn := rfl
  have hcounted : Counted m.conn := invariant_foldl hstep hstart calls
  refine ⟨fun id state hstate => (hentries id state hstate).notClosed, ?_, hcounted⟩
  intro id hlocal hremote hheld
  obtain ⟨state, hstate⟩ := lookup_of_hasStream hheld
  rw [(hentries id state hstate).one hlocal] at hremote
  cases hremote

/-- The local side closes first. -/
def localFirst : List ConnectionCall := [.openStream, .closeStream 1, .processFrame (.fin 1) []]

theorem closed_streams_released_local :
    let m := localFirst.foldl step (start 1024 65536)
    (∀ id state, m.conn.streams.lookup id = some state → state.status ≠ .closed) ∧
      (∀ id, (m.history id).localClosed = true → (m.history id).remoteClosed = true →
        ¬ m.conn.hasStream id) ∧
      m.conn.streamCount.toNat = m.conn.streams.size :=
  closed_streams_released 1024 65536 localFirst (by decide +kernel)

/-- The remote side closes first, and the entry stays. -/
def remoteFirst : List ConnectionCall := [.openStream, .processFrame (.fin 1) [], .closeStream 1]

theorem closed_stream_kept :
    let m := remoteFirst.foldl step (start 1024 65536)
    (m.history 1).localClosed = true ∧ (m.history 1).remoteClosed = true ∧
      (m.conn.streams.lookup 1).map (·.status) = some .closed ∧ m.conn.streamCount = 1 := by
  decide +kernel

end Monitored
end Dcp
