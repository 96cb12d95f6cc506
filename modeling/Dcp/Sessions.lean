import Dcp.Error
import Dcp.Library.Outcome
import Dcp.Library.Table

/-!
The sessions of the server. A session is shared: the table of the server and every caller that
has looked the session up hold a reference to the same object, and a reference stays good when the
table drops it. A method reads the clock where it is called, here as an argument.
-/

namespace Dcp
open Library

/-- The protocol that a session speaks. -/
inductive SessionProtocol
  | mcp
  | dcpV1
  deriving DecidableEq

structure Session where
  id : UInt64
  protocol : SessionProtocol
  createdAt : UInt64
  lastActivity : UInt64
  data : Table String (List UInt8)
  messageCount : UInt64

namespace Session

def new (id now : UInt64) : Session := ⟨id, .mcp, now, now, ∅, 0⟩

def touch (session : Session) (now : UInt64) : Session := { session with lastActivity := now }

/-- The count before the message is returned. -/
def incrementMessages (session : Session) : UInt64 × Session :=
  (session.messageCount, { session with messageCount := session.messageCount + 1 })

def getData (session : Session) (key : String) : Option (List UInt8) := session.data.lookup key

def setData (session : Session) (key : String) (value : List UInt8) : Session :=
  { session with data := AList.insert key value session.data }

end Session

/-- What can be done through a reference to a session. -/
inductive SessionOp
  | setData (key : String) (value : List UInt8)
  | incrementMessages
  | touch (now : UInt64)

def SessionOp.apply : SessionOp → Session → Session
  | .setData key value, session => session.setData key value
  | .incrementMessages, session => session.incrementMessages.2
  | .touch now, session => session.touch now

abbrev SessionRef := Nat

/-- The sessions of a server and the objects that references lead to. A session in the table is
allocated, and has the id that it is found under. -/
structure Sessions where
  objects : SessionRef → Session
  allocated : Nat
  table : Table UInt64 SessionRef
  sessionCounter : UInt64
  maxSessions : Nat
  wellFormed : ∀ id ref, table.lookup id = some ref → ref < allocated ∧ (objects ref).id = id

namespace Sessions

def new (maxSessions : Nat) : Sessions :=
  ⟨fun _ => .new 0 0, 0, ∅, 1, maxSessions, nofun⟩

def getSession (server : Sessions) (id : UInt64) : Option SessionRef := server.table.lookup id

/-- The session that `get_session` leads to. -/
def session (server : Sessions) (id : UInt64) : Option Session :=
  (server.getSession id).map server.objects

/-- Put a new object into the table, in the place of the one that was there. -/
def place (server : Sessions) (session : Session) : Sessions where
  objects := Function.update server.objects server.allocated session
  allocated := server.allocated + 1
  table := AList.insert session.id server.allocated server.table
  sessionCounter := server.sessionCounter
  maxSessions := server.maxSessions
  wellFormed := by
    intro id ref h
    rw [Table.lookup_insert_eq] at h
    split at h
    · next hid =>
        cases h
        rw [Function.update_self]
        exact ⟨Nat.lt_succ_self _, hid.symm⟩
    · obtain ⟨hlt, hid⟩ := server.wellFormed id ref h
      rw [Function.update_of_ne (Nat.ne_of_lt hlt)]
      exact ⟨Nat.lt_succ_of_lt hlt, hid⟩

def createSession (server : Sessions) (now : UInt64) : Except DCPError SessionRef × Sessions :=
  if server.table.size ≥ server.maxSessions then (.error .resourceExhausted, server)
  else
    let id := server.sessionCounter
    (.ok server.allocated, { server.place (.new id now) with sessionCounter := id + 1 })

def removeSession (server : Sessions) (id : UInt64) : Option SessionRef × Sessions :=
  (server.getSession id, { server with
    table := AList.erase id server.table
    wellFormed := by
      intro other ref h
      rw [Table.lookup_erase_eq] at h
      split at h
      · cases h
      · exact server.wellFormed other ref h })

/-- The session that takes the place of the old one: a new one with a copy of the data. -/
def upgraded (id now : UInt64) (old : Session) : Session :=
  { Session.new id now with
    protocol := .dcpV1
    data := old.data.toPairs.foldl (fun data pair => AList.insert pair.1 pair.2 data) ∅ }

def upgradeSession (server : Sessions) (id now : UInt64) : Except DCPError Unit × Sessions :=
  match server.getSession id with
  | none => (.error .sessionNotFound, server)
  | some ref => (.ok (), server.place (upgraded id now (server.objects ref)))

/-- The seconds since a session was last active; below zero the subtraction panics. -/
def idleSecs (now last : UInt64) : Outcome Empty UInt64 :=
  if last ≤ now then .ok (now - last) else .panic

/-- The ids of the sessions in the table that are idle for longer than the timeout. -/
def expiredIds (server : Sessions) (sessionTimeoutSecs now : UInt64) :
    List (UInt64 × SessionRef) → Outcome Empty (List UInt64)
  | [] => pure []
  | (id, ref) :: rest => do
      let idle ← idleSecs now (server.objects ref).lastActivity
      let expired ← expiredIds server sessionTimeoutSecs now rest
      pure (if idle > sessionTimeoutSecs then id :: expired else expired)

/-- The number of sessions removed is returned. -/
def cleanupExpiredSessions (server : Sessions) (sessionTimeoutSecs now : UInt64) :
    Outcome Empty (Nat × Sessions) := do
  let expired ← server.expiredIds sessionTimeoutSecs now server.table.toPairs
  pure (expired.length, expired.foldl (fun server id => (server.removeSession id).2) server)

/-- A method of a session, called through a reference. -/
def through (server : Sessions) (ref : SessionRef) (op : SessionOp) : Sessions :=
  { server with
    objects := Function.update server.objects ref (op.apply (server.objects ref))
    wellFormed := by
      intro id other h
      obtain ⟨hlt, hid⟩ := server.wellFormed id other h
      refine ⟨hlt, ?_⟩
      by_cases heq : other = ref
      · subst heq
        rw [Function.update_self, ← hid]
        cases op <;> rfl
      · rw [Function.update_of_ne heq]
        exact hid }

end Sessions
end Dcp
