import Dcp.Sessions

/-!
Calls on the sessions of one server that overlap. A call goes through its points one at a time:
each is a section under the lock of the table or an access to the counter, and the points of other
calls may come between any two of them. The clock is read when the call needs it.
-/

namespace Dcp
open Library

/-- `poisoned` is set once a call has stopped inside the write lock of the table. -/
structure SharedSessions where
  server : Sessions
  sessionTimeoutSecs : UInt64
  poisoned : Bool

inductive SessionResult
  | created (result : Except DCPError SessionRef)
  | removed (session : Option SessionRef)
  | upgraded (result : Except DCPError Unit)
  | cleaned (count : Nat)
  | panicked

/-- Where a call is: what it does next. -/
inductive SessionPoint
  | checkLimit (now : UInt64)
  | drawId (now : UInt64)
  | insert (id now : UInt64)
  | remove (id : UInt64)
  | findSession (id now : UInt64)
  | replace (id now : UInt64)
  | cleanup (now : UInt64)
  | returned (result : SessionResult)

/-- The id that the call has drawn and not used yet. -/
def SessionPoint.waitingId : SessionPoint → Option UInt64
  | .insert id _ => some id
  | _ => none

namespace SharedSessions

def setServer (s : SharedSessions) (server : Sessions) : SharedSessions := { s with server }

/-- One step of a call. -/
def step (s : SharedSessions) : SessionPoint → SharedSessions × SessionPoint
  | .checkLimit now =>
      (s, if s.poisoned then .returned (.created (.error .internalError))
        else if s.server.table.size ≥ s.server.maxSessions then
          .returned (.created (.error .resourceExhausted))
        else .drawId now)
  | .drawId now =>
      (s.setServer { s.server with sessionCounter := s.server.sessionCounter + 1 },
        .insert s.server.sessionCounter now)
  | .insert id now =>
      if s.poisoned then (s, .returned (.created (.error .internalError)))
      else (s.setServer (s.server.place (.new id now)),
        .returned (.created (.ok s.server.allocated)))
  | .remove id =>
      if s.poisoned then (s, .returned (.removed none))
      else
        let (session, server) := s.server.removeSession id
        (s.setServer server, .returned (.removed session))
  | .findSession id now =>
      (s, if s.poisoned then .returned (.upgraded (.error .sessionNotFound))
        else
          match s.server.getSession id with
          | none => .returned (.upgraded (.error .sessionNotFound))
          | some _ => .replace id now)
  | .replace id now =>
      if s.poisoned then (s, .returned (.upgraded (.error .internalError)))
      else
        -- the session may be gone, or another one, since it was found
        match s.server.getSession id with
        | none => (s, .returned (.upgraded (.ok ())))
        | some ref =>
            (s.setServer (s.server.place (Sessions.upgraded id now (s.server.objects ref))),
              .returned (.upgraded (.ok ())))
  | .cleanup now =>
      if s.poisoned then (s, .returned (.cleaned 0))
      else
        match s.server.cleanupExpiredSessions s.sessionTimeoutSecs now with
        | .ok (count, server) => (s.setServer server, .returned (.cleaned count))
        | .error e => e.elim
        | .panic => ({ s with poisoned := true }, .returned .panicked)
  | .returned result => (s, .returned result)

/-- The next steps of a call while no other call takes one. -/
def finish (s : SharedSessions) (point : SessionPoint) : Nat → SharedSessions × SessionPoint
  | 0 => (s, point)
  | n + 1 => (s.step point).1.finish (s.step point).2 n

variable {s : SharedSessions}

@[simp] theorem setServer_self (s : SharedSessions) : s.setServer s.server = s := rfl

/-- A session that is created while nothing else happens. -/
theorem finish_create (h : s.poisoned = false) (now : UInt64) :
    s.finish (.checkLimit now) 3 =
      (s.setServer (s.server.createSession now).2,
        .returned (.created (s.server.createSession now).1)) := by
  by_cases hfull : s.server.table.size ≥ s.server.maxSessions
  · simp [finish, step, h, hfull, Sessions.createSession]
  · have hdrawn : s.step (.checkLimit now) = (s, .drawId now) := by simp [step, h, hfull]
    rw [finish, hdrawn, Sessions.createSession, if_neg hfull]
    simp only [finish, step, setServer, h, Bool.false_eq_true, if_false]
    rfl

theorem finish_upgrade (h : s.poisoned = false) (id now : UInt64) :
    s.finish (.findSession id now) 2 =
      (s.setServer (s.server.upgradeSession id now).2,
        .returned (.upgraded (s.server.upgradeSession id now).1)) := by
  cases hfound : s.server.getSession id with
  | none => simp [finish, step, h, hfound, Sessions.upgradeSession]
  | some ref => simp [finish, step, h, hfound, Sessions.upgradeSession]

theorem finish_remove (h : s.poisoned = false) (id : UInt64) :
    s.finish (.remove id) 1 =
      (s.setServer (s.server.removeSession id).2,
        .returned (.removed (s.server.removeSession id).1)) := by
  simp [finish, step, h]

theorem finish_cleanup (h : s.poisoned = false) {now : UInt64} {count : Nat} {server : Sessions}
    (hcleaned : s.server.cleanupExpiredSessions s.sessionTimeoutSecs now = .ok (count, server)) :
    s.finish (.cleanup now) 1 = (s.setServer server, .returned (.cleaned count)) := by
  simp [finish, step, h, hcleaned]

end SharedSessions

/-- The table when a call asked for the limit: its sessions, and how many had ever been put into it
and taken out of it. -/
structure SeenTable where
  sessions : Nat
  entered : Nat
  left : Nat

structure SessionCall where
  point : SessionPoint
  seen : SeenTable

/-- A server and the calls that were made on it, with the ids that were drawn and the numbers of
sessions that were put into the table and taken out of it. -/
structure SessionOverlap where
  shared : SharedSessions
  calls : List SessionCall
  issued : List UInt64
  entered : Nat
  left : Nat

inductive SessionStep
  | create (now : UInt64)
  | remove (id : UInt64)
  | upgrade (id now : UInt64)
  | cleanup (now : UInt64)
  | through (ref : SessionRef) (op : SessionOp)
  | advance (index : Nat)

namespace SessionOverlap

def start (maxSessions : Nat) (sessionTimeoutSecs : UInt64) : SessionOverlap :=
  ⟨⟨.new maxSessions, sessionTimeoutSecs, false⟩, [], [], 0, 0⟩

def size (w : SessionOverlap) : Nat := w.shared.server.table.size

def enter (w : SessionOverlap) (point : SessionPoint) : SessionOverlap :=
  { w with calls := w.calls ++ [⟨point, 0, 0, 0⟩] }

/-- What the call has seen after its step. -/
def seenBy (w : SessionOverlap) (call : SessionCall) : SeenTable :=
  match call.point with
  | .checkLimit _ => ⟨w.size, w.entered, w.left⟩
  | _ => call.seen

/-- The ids that the step draws. -/
def draws (w : SessionOverlap) : SessionPoint → List UInt64
  | .drawId _ => [w.shared.server.sessionCounter]
  | _ => []

/-- A step of a call, and what it does to the table. -/
def advance (w : SessionOverlap) (index : Nat) (call : SessionCall) : SessionOverlap :=
  let (shared, point) := w.shared.step call.point
  { shared
    calls := w.calls.set index ⟨point, w.seenBy call⟩
    issued := w.issued ++ w.draws call.point
    entered := w.entered + (shared.server.table.size - w.size)
    left := w.left + (w.size - shared.server.table.size) }

def step (w : SessionOverlap) : SessionStep → SessionOverlap
  | .create now => w.enter (.checkLimit now)
  | .remove id => w.enter (.remove id)
  | .upgrade id now => w.enter (.findSession id now)
  | .cleanup now => w.enter (.cleanup now)
  | .through ref op => { w with shared := w.shared.setServer (w.shared.server.through ref op) }
  | .advance index =>
      match w.calls[index]? with
      | none => w
      | some call => w.advance index call

end SessionOverlap
end Dcp
