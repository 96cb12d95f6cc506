import Dcp.Multiplex.Moves

/-!
What a stream delivers. The payloads that `recv` returned, followed by those that it would
still return, are the payloads the stream accepted. A stream can be removed with payloads
that nobody read: a FIN frame removes it as soon as the local side is closed.
-/

namespace Dcp
open Library

namespace MultiplexedConnection

/-- The payloads that so many calls of `recv` return, up to the first that returns none. -/
def drain (c : MultiplexedConnection) (id : UInt16) : Nat → List (List UInt8)
  | 0 => []
  | n + 1 =>
      match c.recv id with
      | (.ok (some data), c) => data :: c.drain id n
      | _ => []

def unread (c : MultiplexedConnection) (id : UInt16) : List (List UInt8) :=
  match c.streams.lookup id with
  | some state => state.recvBuffer
  | none => []

variable {c : MultiplexedConnection} {id : UInt16} {state : StreamState}

theorem unread_of_lookup (h : c.streams.lookup id = some state) :
    c.unread id = state.recvBuffer := by
  simp [unread, h]

theorem unread_of_lookup_none (h : c.streams.lookup id = none) : c.unread id = [] := by
  simp [unread, h]

theorem drain_of_lookup (hopen : c.closed = false) (hlookup : c.streams.lookup id = some state)
    (hstatus : state.status ≠ .reset) {n : Nat} (hn : state.recvBuffer.length ≤ n) :
    c.drain id n = state.recvBuffer := by
  induction n generalizing c state with
  | zero => exact (List.eq_nil_of_length_eq_zero (Nat.le_zero.mp hn)).symm
  | succ n ih =>
      have hrecv : c.recv id = (.ok state.takeRecv.1, c.setStream id state.takeRecv.2) := by
        simp [recv, hopen, hlookup, hstatus]
      unfold drain
      rw [hrecv]
      unfold StreamState.takeRecv
      cases hbuffer : state.recvBuffer with
      | nil => rfl
      | cons data rest =>
          dsimp only
          refine congrArg (data :: ·) ?_
          refine ih (c := c.setStream id _) hopen (AList.lookup_insert _) hstatus ?_
          rw [hbuffer, List.length_cons] at hn
          exact Nat.le_of_succ_le_succ hn

theorem drain_eq_unread (hopen : c.closed = false)
    (hstatus : ∀ state, c.streams.lookup id = some state → state.status ≠ .reset) {n : Nat}
    (hn : (c.unread id).length ≤ n) : c.drain id n = c.unread id := by
  cases hlookup : c.streams.lookup id with
  | none =>
      rw [unread_of_lookup_none hlookup]
      cases n with
      | zero => rfl
      | succ n => simp [drain, recv, hopen, hlookup]
  | some state =>
      rw [unread_of_lookup hlookup] at hn ⊢
      exact drain_of_lookup hopen hlookup (hstatus state hlookup) hn

end MultiplexedConnection

namespace Monitored
open MultiplexedConnection
variable {id : UInt16} {m : Monitored} {call : ConnectionCall}

/-- A call does not remove the stream while payloads of it wait: a FIN frame does when the
local side is closed, and the rollback of an opening does. -/
def KeepsUnread (id : UInt16) (m : Monitored) : ConnectionCall → Prop
  | .processFrame header _ => header.streamId = id → header.flags.isFin = true →
      ∀ state ∈ m.conn.streams.lookup id,
        state.status = .halfClosedLocal ∨ state.status = .closed → state.recvBuffer = []
  | .rollbackStreamOpen a => a = id → m.conn.unread id = []
  | _ => True

instance (id : UInt16) (m : Monitored) (call : ConnectionCall) :
    Decidable (KeepsUnread id m call) :=
  match call with
  | .processFrame .. => inferInstanceAs (Decidable (_ → _ → ∀ _ ∈ _, _ ∨ _ → _))
  | .rollbackStreamOpen _ => inferInstanceAs (Decidable (_ → _))
  | .openStream | .acceptStream _ | .send .. | .recv _ | .closeStream _ | .resetStream ..
  | .takeFrame | .close => .isTrue trivial

/-- Nothing that the stream accepted was lost, unless it was reset. -/
structure Conserves (id : UInt16) (m : Monitored) : Prop where
  status : (m.history id).wasReset = false →
    ∀ state, m.conn.streams.lookup id = some state → state.status ≠ .reset
  payloads : (m.history id).wasReset = false →
    (m.history id).delivered ++ m.conn.unread id = (m.history id).accepted

theorem conserves_start (maxSendQueueLen maxRecvBufferBytes : Nat) :
    Conserves id (start maxSendQueueLen maxRecvBufferBytes) where
  status _ state hlookup := by cases hlookup
  payloads _ := rfl

theorem Conserves.of_same {m' : Monitored} (h : Conserves id m)
    (hlookup : m'.conn.streams.lookup id = m.conn.streams.lookup id)
    (hhistory : m'.history id = m.history id) : Conserves id m' := by
  have hunread : m'.conn.unread id = m.conn.unread id := by
    unfold unread
    rw [hlookup]
  constructor
  · rw [hhistory, hlookup]
    exact h.status
  · rw [hhistory, hunread]
    exact h.payloads

theorem Conserves.of_stores {conn : MultiplexedConnection} {state state' : StreamState}
    {history' : StreamHistory} {limit : Nat} (h : Conserves id m)
    (hlookup : m.conn.streams.lookup id = some state)
    (hstores : Stores limit call id state (m.history id) state' history')
    (hlookup' : conn.streams.lookup id = some state') :
    Conserves id (m.note conn id fun _ => history') := by
  have hhistory : (m.note conn id fun _ => history').history id = history' := by
    rw [history_note, if_pos rfl]
  have hkeeps : history'.wasReset = false → state'.status ≠ .reset ∧
      history'.delivered ++ state'.recvBuffer = history'.accepted := by
    have hbefore : (m.history id).wasReset = false → state.status ≠ .reset ∧
        (m.history id).delivered ++ state.recvBuffer = (m.history id).accepted :=
      fun hreset => ⟨h.status hreset state hlookup, unread_of_lookup hlookup ▸ h.payloads hreset⟩
    intro hreset
    cases hstores with
    | sends buffer => exact hbefore hreset
    | delivers hstatus =>
        obtain ⟨-, hpayloads⟩ := hbefore hreset
        refine ⟨state.status_takeRecv ▸ hstatus, ?_⟩
        rw [List.append_assoc, state.takeRecv_eq]
        exact hpayloads
    | accepts payload hqueued =>
        obtain ⟨-, rfl⟩ := StreamState.queueRecv_eq_ok hqueued
        obtain ⟨hstatus, hpayloads⟩ := hbefore hreset
        refine ⟨hstatus, ?_⟩
        rw [← List.append_assoc, hpayloads]
    | closesLocal hcall =>
        obtain ⟨hstatus, hpayloads⟩ := hbefore hreset
        exact ⟨StreamState.status_closeLocal hstatus, hpayloads⟩
    | closesRemote hopen =>
        obtain ⟨hstatus, hpayloads⟩ := hbefore hreset
        exact ⟨StreamState.status_closeRemote hstatus, hpayloads⟩
    | resets error => cases hreset
  constructor
  · rw [hhistory]
    intro hreset state'' hlookup''
    cases hlookup'.symm.trans hlookup''
    exact (hkeeps hreset).1
  · rw [hhistory]
    intro hreset
    exact unread_of_lookup (c := conn) hlookup' ▸ (hkeeps hreset).2

theorem Conserves.of_removes {conn : MultiplexedConnection} {state : StreamState}
    {history' : StreamHistory} (h : Conserves id m)
    (hlookup : m.conn.streams.lookup id = some state)
    (hremoves : Removes call id state (m.history id) history')
    (hunread : KeepsUnread id m call) (hlookup' : conn.streams.lookup id = none) :
    Conserves id (m.note conn id fun _ => history') := by
  have hhistory : (m.note conn id fun _ => history').history id = history' := by
    rw [history_note, if_pos rfl]
  have hempty : (m.history id).wasReset = false → state.recvBuffer = [] ∧
      history'.delivered = (m.history id).delivered ∧
        history'.accepted = (m.history id).accepted := by
    intro hreset
    cases hremoves with
    | finishes header payload hcall hid hfin hclosed =>
        subst hcall
        refine ⟨hunread hid hfin state hlookup ?_, rfl, rfl⟩
        obtain hlocal | hboth | hwas := StreamState.isClosed_closeRemote hclosed
        · exact .inl hlocal
        · exact .inr hboth
        · exact absurd hwas (h.status hreset state hlookup)
    | rollsBack hcall =>
        subst hcall
        exact ⟨unread_of_lookup hlookup ▸ hunread rfl, rfl, rfl⟩
  have hreset : history'.wasReset = (m.history id).wasReset := by cases hremoves <;> rfl
  constructor
  · intro _ state' hstate'
    cases hlookup'.symm.trans hstate'
  · rw [hhistory, hreset]
    intro hnot
    obtain ⟨hbuffer, hdelivered, haccepted⟩ := hempty hnot
    have hpayloads := h.payloads hnot
    rw [unread_of_lookup hlookup, hbuffer] at hpayloads
    rw [hdelivered, haccepted, ← hpayloads]
    exact congrArg _ (unread_of_lookup_none (c := conn) hlookup')

theorem conserves_step (h : m.conn.closed = false → Conserves id m)
    (hunread : KeepsUnread id m call) (hopen : (m.step call).conn.closed = false) :
    Conserves id (m.step call) := by
  have hmoves := m.step_moves call
  generalize m.step call = m' at hmoves hopen ⊢
  cases hmoves with
  | quiet hsame =>
      exact (h (hsame.closed.symm.trans hopen)).of_same (hsame.lookup id) rfl
  | creates a ha hopen' hroom hfree hsame =>
      have hlookup := hsame.lookup_withNewStream id
      by_cases hid : id = a
      · subst hid
        rw [if_pos rfl] at hlookup
        refine ⟨fun _ state hstate => ?_, fun _ => ?_⟩
        · cases hlookup.symm.trans hstate
          exact StreamStatus.noConfusion
        · rw [history_note, if_pos rfl]
          exact congrArg ([] ++ ·) (unread_of_lookup hlookup)
      · rw [if_neg hid] at hlookup
        exact (h hopen').of_same hlookup ((history_note m _ a id _).trans (if_neg hid))
  | @stores conn a state state' history' hfound hstores hsame =>
      have hlookup := hsame.lookup_setStream id
      have hbefore := h (hsame.closed.symm.trans hopen)
      by_cases hid : id = a
      · subst hid
        exact hbefore.of_stores hfound hstores (hlookup.trans (if_pos rfl))
      · rw [if_neg hid] at hlookup
        exact hbefore.of_same hlookup ((history_note m _ a id _).trans (if_neg hid))
  | @removes conn a state history' hfound hremoves hsame =>
      have hlookup := hsame.lookup_withoutStream id
      have hbefore := h (hsame.closed.symm.trans hopen)
      by_cases hid : id = a
      · subst hid
        exact hbefore.of_removes hfound hremoves hunread (hlookup.trans (if_pos rfl))
      · rw [if_neg hid] at hlookup
        exact hbefore.of_same hlookup ((history_note m _ a id _).trans (if_neg hid))
  | closes hcall => cases hopen

/-- In every run that removes the stream only when nothing of it is unread, the payloads that
`recv` returned and those that it would still return are those that the stream accepted. -/
theorem delivery_lossless (maxSendQueueLen maxRecvBufferBytes : Nat) (id : UInt16)
    (calls : List ConnectionCall)
    (hrun : EveryStep step (KeepsUnread id) (start maxSendQueueLen maxRecvBufferBytes) calls)
    (hopen : (calls.foldl step (start maxSendQueueLen maxRecvBufferBytes)).conn.closed = false)
    (hreset : ((calls.foldl step (start maxSendQueueLen maxRecvBufferBytes)).history
      id).wasReset = false) :
    let m := calls.foldl step (start maxSendQueueLen maxRecvBufferBytes)
    ∃ enough, ∀ n ≥ enough,
      (m.history id).delivered ++ m.conn.drain id n = (m.history id).accepted := by
  intro m
  have hstep : ∀ m call, (m.conn.closed = false → Conserves id m) → KeepsUnread id m call →
      (m.step call).conn.closed = false → Conserves id (m.step call) :=
    fun m call h hunread => conserves_step h hunread
  have hconserves : m.conn.closed = false → Conserves id m :=
    hrun.invariant hstep fun _ => conserves_start _ _
  obtain ⟨hstatus, hpayloads⟩ := hconserves hopen
  refine ⟨(m.conn.unread id).length, fun n hn => ?_⟩
  rw [drain_eq_unread hopen (hstatus hreset) hn]
  exact hpayloads hreset

/-- The payload is read before the second half-close arrives. -/
def readBeforeFin : List ConnectionCall :=
  [.openStream, .processFrame (.data 1 1) [7], .closeStream 1, .recv 1,
    .processFrame (.fin 1) []]

theorem delivery_lossless_read :
    let m := readBeforeFin.foldl step (start 1024 65536)
    ∃ enough, ∀ n ≥ enough,
      (m.history 1).delivered ++ m.conn.drain 1 n = (m.history 1).accepted :=
  delivery_lossless 1024 65536 1 readBeforeFin (by decide +kernel) (by decide +kernel)
    (by decide +kernel)

/-- A payload that waits when the second half-close arrives is lost. -/
def unreadAtFin : List ConnectionCall :=
  [.openStream, .processFrame (.data 1 1) [7], .closeStream 1, .processFrame (.fin 1) []]

theorem delivery_loses_unread :
    let m := unreadAtFin.foldl step (start 1024 65536)
    m.conn.closed = false ∧ (m.history 1).wasReset = false ∧ (m.history 1).accepted = [[7]] ∧
      (m.history 1).delivered = [] ∧ ∀ n, m.conn.drain 1 n = [] := by
  intro m
  refine ⟨by decide +kernel, by decide +kernel, by decide +kernel, by decide +kernel, ?_⟩
  have hopen : m.conn.closed = false := by decide +kernel
  have hnone : m.conn.streams.lookup 1 = none := by decide +kernel
  intro n
  cases n with
  | zero => rfl
  | succ n => simp [drain, recv, hopen, hnone]

end Monitored
end Dcp
