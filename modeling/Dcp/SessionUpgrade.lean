import Dcp.Library.Run
import Dcp.Sessions

/-!
What an upgrade keeps of a session. The session that takes the place of the old one has its data
and nothing else of it, and what is done through a reference to the old one is not seen through
the table any more.
-/

namespace Dcp
open Library

/-- Sessions that no caller can tell apart. -/
structure Session.Same (s t : Session) : Prop where
  id : s.id = t.id
  protocol : s.protocol = t.protocol
  createdAt : s.createdAt = t.createdAt
  lastActivity : s.lastActivity = t.lastActivity
  data : ∀ key, s.getData key = t.getData key
  messageCount : s.messageCount = t.messageCount

/-- The session already is what the method would make of it. -/
def SessionOp.Repeats (session : Session) : SessionOp → Prop
  | .setData key value => session.getData key = some value
  | .incrementMessages => False
  | .touch now => session.lastActivity = now

/-- A method that is called after an upgrade, through a reference from before it or after it. -/
structure LaterOp where
  stale : Bool
  op : SessionOp

/-- Methods that are called through the stale reference only ask for what the session already is. -/
def Session.Idle (session : Session) : List LaterOp → Prop
  | [] => True
  | ⟨true, op⟩ :: rest => op.Repeats session ∧ session.Idle rest
  | ⟨false, op⟩ :: rest => (op.apply session).Idle rest

namespace Session

theorem Same.refl (s : Session) : Same s s := ⟨rfl, rfl, rfl, rfl, fun _ => rfl, rfl⟩

theorem getData_setData (s : Session) (key key' : String) (value : List UInt8) :
    (s.setData key value).getData key' = if key' = key then some value else s.getData key' :=
  Table.lookup_insert_eq key key' value s.data

theorem Same.apply {s t : Session} (h : Same s t) (op : SessionOp) :
    Same (op.apply s) (op.apply t) := by
  cases op with
  | setData key value =>
      refine ⟨h.id, h.protocol, h.createdAt, h.lastActivity, ?_, h.messageCount⟩
      intro key'
      simp only [SessionOp.apply, getData_setData, h.data]
  | incrementMessages =>
      exact ⟨h.id, h.protocol, h.createdAt, h.lastActivity, h.data,
        congrArg (· + 1) h.messageCount⟩
  | touch now => exact ⟨h.id, h.protocol, h.createdAt, rfl, h.data, h.messageCount⟩

theorem Same.repeats_iff {s t : Session} (h : Same s t) (op : SessionOp) :
    op.Repeats s ↔ op.Repeats t := by
  cases op with
  | setData key value => simp only [SessionOp.Repeats, h.data]
  | incrementMessages => exact Iff.rfl
  | touch now => simp only [SessionOp.Repeats, h.lastActivity]

theorem Same.idle_iff {s t : Session} (h : Same s t) (later : List LaterOp) :
    s.Idle later ↔ t.Idle later := by
  induction later generalizing s t with
  | nil => exact Iff.rfl
  | cons l rest ih =>
      obtain ⟨stale, op⟩ := l
      cases stale with
      | true => exact and_congr (h.repeats_iff op) (ih h)
      | false => exact ih (h.apply op)

/-- The methods have nothing to do with the protocol. -/
theorem idle_withProtocol (s : Session) (protocol : SessionProtocol) (later : List LaterOp) :
    Idle { s with protocol := protocol } later ↔ s.Idle later := by
  induction later generalizing s with
  | nil => exact Iff.rfl
  | cons l rest ih =>
      obtain ⟨stale, op⟩ := l
      have hrepeats : op.Repeats { s with protocol := protocol } ↔ op.Repeats s := by
        cases op <;> exact Iff.rfl
      have happly : op.apply { s with protocol := protocol } =
          { op.apply s with protocol := protocol } := by
        cases op <;> rfl
      cases stale with
      | true => exact and_congr hrepeats (ih s)
      | false =>
          show (op.apply { s with protocol := protocol }).Idle rest ↔ _
          rw [happly]
          exact ih (op.apply s)

theorem idle_of_same {s t : Session} {protocol : SessionProtocol}
    (h : s.Same { t with protocol := protocol }) (later : List LaterOp) :
    s.Idle later ↔ t.Idle later :=
  (h.idle_iff later).trans (t.idle_withProtocol protocol later)

/-- A method leaves the session as it is exactly if it asks for what the session already is. -/
theorem same_apply_iff (s : Session) (op : SessionOp) : Same s (op.apply s) ↔ op.Repeats s := by
  cases op with
  | setData key value =>
      constructor
      · intro h
        have hdata := h.data key
        rw [SessionOp.apply, getData_setData, if_pos rfl] at hdata
        exact hdata
      · intro h
        refine ⟨rfl, rfl, rfl, rfl, ?_, rfl⟩
        intro key'
        rw [SessionOp.apply, getData_setData]
        split
        · next hkey => exact hkey ▸ h
        · rfl
  | incrementMessages =>
      constructor
      · intro h
        have hcount : s.messageCount = s.messageCount + 1 := h.messageCount
        grind
      · exact False.elim
  | touch now =>
      constructor
      · exact fun h => h.lastActivity
      · exact fun h => ⟨rfl, rfl, rfl, h, fun _ => rfl, rfl⟩

end Session

namespace Sessions

/-- The method called through the reference from before or from after the upgrade. -/
def callLater (old new : SessionRef) (server : Sessions) (l : LaterOp) : Sessions :=
  server.through (if l.stale then old else new) l.op

/-- What the call does to the session is seen by the next `get_session`. -/
def Shows (old new : SessionRef) (id : UInt64) (server : Sessions) (l : LaterOp) : Prop :=
  ∃ before after, server.session id = some before ∧
    (server.callLater old new l).session id = some after ∧ after.Same (l.op.apply before)

/-- The upgrade changes the protocol of the session only, and the references from before and from
after it both lead to the session that is in the table, through all the calls that follow. -/
structure Upgrades (server : Sessions) (id now : UInt64) (later : List LaterOp) : Prop where
  keeps : ∀ session, server.session id = some session →
    ∃ session', (server.upgradeSession id now).2.session id = some session' ∧
      session'.Same { session with protocol := .dcpV1 }
  others : ∀ other, other ≠ id →
    (server.upgradeSession id now).2.session other = server.session other
  shows : ∀ old new, server.getSession id = some old →
    (server.upgradeSession id now).2.getSession id = some new →
    EveryStep (callLater old new) (Shows old new id) (server.upgradeSession id now).2 later

theorem session_place (server : Sessions) (session : Session) (id : UInt64) :
    (server.place session).session id =
      if id = session.id then some session else server.session id := by
  unfold Sessions.session getSession place
  simp only [Table.lookup_insert_eq]
  split
  · simp
  · cases hlookup : server.table.lookup id with
    | none => rfl
    | some ref =>
        have hne : ref ≠ server.allocated := Nat.ne_of_lt (server.wellFormed id ref hlookup).1
        rw [Option.map_some, Option.map_some, Function.update_of_ne hne]

theorem same_upgraded_iff {id now : UInt64} {session : Session} (hid : session.id = id) :
    (upgraded id now session).Same { session with protocol := .dcpV1 } ↔
      session.createdAt = now ∧ session.lastActivity = now ∧ session.messageCount = 0 := by
  constructor
  · intro h
    exact ⟨h.createdAt.symm, h.lastActivity.symm, h.messageCount.symm⟩
  · rintro ⟨hcreated, hlast, hcount⟩
    exact ⟨hid.symm, rfl, hcreated.symm, hlast.symm, Table.lookup_copy session.data, hcount.symm⟩

/-- Calls are seen as long as those through the stale reference have nothing to change. -/
theorem shows_iff_idle {server : Sessions} {id : UInt64} {old new : SessionRef}
    (hne : old ≠ new) (hnew : server.getSession id = some new) (later : List LaterOp) :
    EveryStep (callLater old new) (Shows old new id) server later ↔
      (server.objects new).Idle later := by
  induction later generalizing server with
  | nil => exact Iff.rfl
  | cons l rest ih =>
      obtain ⟨stale, op⟩ := l
      have hsession : server.session id = some (server.objects new) := by
        rw [session, hnew]
        rfl
      have hget : (server.callLater old new ⟨stale, op⟩).getSession id = some new := hnew
      have hnext : (server.callLater old new ⟨stale, op⟩).session id =
          some ((server.callLater old new ⟨stale, op⟩).objects new) := by
        rw [session, hget]
        rfl
      have hshows : Shows old new id server ⟨stale, op⟩ ↔
          ((server.callLater old new ⟨stale, op⟩).objects new).Same
            (op.apply (server.objects new)) := by
        unfold Shows
        rw [hsession, hnext]
        simp
      have hrest := ih hget
      cases stale with
      | true =>
          have hobject : (server.callLater old new ⟨true, op⟩).objects new =
              server.objects new := Function.update_of_ne hne.symm _ _
          rw [hobject] at hshows hrest
          exact and_congr (hshows.trans (Session.same_apply_iff _ op)) hrest
      | false =>
          have hobject : (server.callLater old new ⟨false, op⟩).objects new =
              op.apply (server.objects new) := Function.update_self _ _ _
          rw [hobject] at hshows hrest
          exact (and_iff_right (hshows.mpr (.refl _))).trans hrest

/-- Where there is no session, nothing is upgraded. -/
theorem upgrades_of_none {server : Sessions} {id : UInt64} (h : server.getSession id = none)
    (now : UInt64) (later : List LaterOp) : server.Upgrades id now later := by
  have hsame : (server.upgradeSession id now).2 = server := by
    rw [upgradeSession, h]
  refine ⟨?_, fun other _ => by rw [hsame], ?_⟩
  · intro session hsession
    rw [Sessions.session, h] at hsession
    cases hsession
  · intro old new hold
    rw [h] at hold
    cases hold

section Upgraded
variable {server : Sessions} {id : UInt64} {old : SessionRef}

theorem upgradeSession_some (h : server.getSession id = some old) (now : UInt64) :
    (server.upgradeSession id now).2 = server.place (upgraded id now (server.objects old)) := by
  rw [upgradeSession, h]

theorem session_upgradeSession (h : server.getSession id = some old) (now : UInt64) :
    (server.upgradeSession id now).2.session id =
      some (upgraded id now (server.objects old)) := by
  rw [upgradeSession_some h, session_place]
  exact if_pos rfl

theorem getSession_upgradeSession (h : server.getSession id = some old) (now : UInt64) :
    (server.upgradeSession id now).2.getSession id = some server.allocated := by
  rw [upgradeSession_some h]
  exact AList.lookup_insert _

/-- What calls show after an upgrade is shown by the session from before, if the new one is the
same. -/
theorem shows_upgradeSession_iff (h : server.getSession id = some old) (now : UInt64)
    (later : List LaterOp) :
    EveryStep (callLater old server.allocated) (Shows old server.allocated id)
        (server.upgradeSession id now).2 later ↔
      (upgraded id now (server.objects old)).Idle later := by
  have hne : old ≠ server.allocated := Nat.ne_of_lt (server.wellFormed id old h).1
  have hobject : (server.upgradeSession id now).2.objects server.allocated =
      upgraded id now (server.objects old) := by
    rw [upgradeSession_some h]
    exact Function.update_self _ _ _
  rw [shows_iff_idle hne (getSession_upgradeSession h now), hobject]

end Upgraded

/-- An upgrade keeps the session exactly if there is no such session, or it is as new as the one
that takes its place and nobody changes anything through a reference from before. -/
theorem upgrade_keeps_iff (server : Sessions) (id now : UInt64) (later : List LaterOp) :
    server.Upgrades id now later ↔
      ∀ session, server.session id = some session →
        (session.createdAt = now ∧ session.lastActivity = now ∧ session.messageCount = 0) ∧
        session.Idle later := by
  cases hlookup : server.getSession id with
  | none =>
      refine iff_of_true (upgrades_of_none hlookup now later) fun session hsession => ?_
      rw [Sessions.session, hlookup] at hsession
      cases hsession
  | some old =>
      have hid := (server.wellFormed id old hlookup).2
      have hsession : server.session id = some (server.objects old) := by
        rw [session, hlookup]
        rfl
      have hupgraded := session_upgradeSession hlookup now
      have hnew := getSession_upgradeSession hlookup now
      have hshows := shows_upgradeSession_iff hlookup now later
      constructor
      · intro h session hfound
        cases hsession.symm.trans hfound
        obtain ⟨session', hsession', hsame⟩ := h.keeps _ hsession
        cases hupgraded.symm.trans hsession'
        exact ⟨(same_upgraded_iff hid).mp hsame,
          (Session.idle_of_same hsame later).mp (hshows.mp (h.shows old _ hlookup hnew))⟩
      · intro h
        obtain ⟨hfresh, hquiet⟩ := h _ hsession
        have hsame : (upgraded id now (server.objects old)).Same
            { server.objects old with protocol := .dcpV1 } := (same_upgraded_iff hid).mpr hfresh
        refine ⟨?_, ?_, ?_⟩
        · intro session hfound
          cases hsession.symm.trans hfound
          exact ⟨_, hupgraded, hsame⟩
        · intro other hother
          rw [upgradeSession_some hlookup, session_place]
          exact if_neg hother
        · intro old' new' hold hnew'
          cases hlookup.symm.trans hold
          cases hnew.symm.trans hnew'
          exact hshows.mpr ((Session.idle_of_same hsame later).mpr hquiet)

/-- A server with one session, created at the time 5. -/
def oneSession : Sessions := ((Sessions.new 10).createSession 5).2

/-- The session has seen a message before it is upgraded, two seconds after it was created, and
another message comes through the reference from before. -/
theorem upgrade_forgets :
    ¬ (oneSession.through 0 .incrementMessages).Upgrades 1 7 [⟨true, .incrementMessages⟩] := by
  intro h
  obtain ⟨session, hsession, hsame⟩ := h.keeps _ rfl
  cases hsession
  exact absurd hsame.messageCount (by decide)

end Sessions
end Dcp
