import Dcp.Sessions

/-!
What a cleanup removes from the table. It stops at a session that was active later than the clock
shows; without one it removes the sessions that are idle for too long, and no others.
-/

namespace Dcp
open Library

namespace Sessions

/-- The session is there, and its time since it was last active is longer than the timeout. -/
def Expired (server : Sessions) (sessionTimeoutSecs now : UInt64) (id : UInt64) : Prop :=
  ∃ session, server.session id = some session ∧
    sessionTimeoutSecs.toNat < now.toNat - session.lastActivity.toNat

/-- The cleanup ends, and it has removed and counted exactly the expired sessions. -/
def CleansUp (server : Sessions) (sessionTimeoutSecs now : UInt64) : Prop :=
  ∃ count cleaned, server.cleanupExpiredSessions sessionTimeoutSecs now = .ok (count, cleaned) ∧
    (∀ id, server.Expired sessionTimeoutSecs now id → cleaned.session id = none) ∧
    (∀ id, ¬ server.Expired sessionTimeoutSecs now id →
      cleaned.session id = server.session id) ∧
    count + cleaned.table.size = server.table.size

variable {server : Sessions}

theorem idleSecs_eq_ok_iff {now last idle : UInt64} :
    idleSecs now last = .ok idle ↔ last ≤ now ∧ idle = now - last := by
  rw [idleSecs]
  split
  · next hle => simp [hle, eq_comm]
  · next hlt => simp [hlt]

/-- The test that the cleanup makes of a pair of the table. -/
def lateIn (server : Sessions) (sessionTimeoutSecs now : UInt64) (pair : UInt64 × SessionRef) :
    Bool :=
  sessionTimeoutSecs < now - (server.objects pair.2).lastActivity

theorem expiredIds_eq_ok_iff (server : Sessions) (sessionTimeoutSecs now : UInt64)
    (pairs : List (UInt64 × SessionRef)) (expired : List UInt64) :
    server.expiredIds sessionTimeoutSecs now pairs = .ok expired ↔
      (∀ pair ∈ pairs, (server.objects pair.2).lastActivity ≤ now) ∧
        expired = (pairs.filter (server.lateIn sessionTimeoutSecs now)).map Prod.fst := by
  induction pairs generalizing expired with
  | nil =>
      rw [expiredIds, Outcome.pure_eq_ok_iff]
      simp [eq_comm]
  | cons pair rest ih =>
      obtain ⟨id, ref⟩ := pair
      simp only [expiredIds, Outcome.bind_eq_ok_iff, Outcome.pure_eq_ok_iff, idleSecs_eq_ok_iff, ih,
        List.forall_mem_cons, List.filter_cons, lateIn, decide_eq_true_eq]
      constructor
      · rintro ⟨_, ⟨hle, rfl⟩, _, ⟨hrest, rfl⟩, rfl⟩
        refine ⟨⟨hle, hrest⟩, ?_⟩
        split <;> rfl
      · rintro ⟨⟨hle, hrest⟩, rfl⟩
        refine ⟨_, ⟨hle, rfl⟩, _, ⟨hrest, rfl⟩, ?_⟩
        split <;> rfl

theorem objects_removeAll (server : Sessions) (ids : List UInt64) :
    (ids.foldl (fun server id => (server.removeSession id).2) server).objects =
      server.objects := by
  induction ids generalizing server with
  | nil => rfl
  | cons id rest ih => exact ih (server.removeSession id).2

theorem lookup_removeAll (server : Sessions) (ids : List UInt64) (id : UInt64) :
    (ids.foldl (fun server id => (server.removeSession id).2) server).table.lookup id =
      if id ∈ ids then none else server.table.lookup id := by
  induction ids generalizing server with
  | nil => rfl
  | cons first rest ih =>
      have hfirst : (server.removeSession first).2.table.lookup id =
          if id = first then none else server.table.lookup id :=
        Table.lookup_erase_eq first id server.table
      rw [List.foldl_cons, ih, hfirst]
      by_cases hid : id = first
      · simp [hid]
      · simp [hid]

/-- Each of the ids takes one session away. -/
theorem size_removeAll (server : Sessions) {ids : List UInt64} (hnodup : ids.Nodup)
    (hmem : ∀ id ∈ ids, id ∈ server.table) :
    ids.length +
        (ids.foldl (fun server id => (server.removeSession id).2) server).table.size =
      server.table.size := by
  induction ids generalizing server with
  | nil => exact Nat.zero_add _
  | cons id rest ih =>
      obtain ⟨hfresh, hrest⟩ := List.nodup_cons.mp hnodup
      obtain ⟨hid, hmemRest⟩ := List.forall_mem_cons.mp hmem
      obtain ⟨ref, href⟩ := Option.isSome_iff_exists.mp (AList.lookup_isSome.mpr hid)
      have herase : (server.removeSession id).2.table.size + 1 = server.table.size :=
        Table.size_erase_of_lookup_some href
      have hothers : ∀ other ∈ rest, other ∈ (server.removeSession id).2.table := by
        intro other hother
        have hne : other ≠ id := fun heq => hfresh (heq ▸ hother)
        exact AList.mem_erase.mpr ⟨hne, hmemRest other hother⟩
      have hcount := ih (server.removeSession id).2 hrest hothers
      rw [List.length_cons, List.foldl_cons]
      omega

theorem session_of_lookup {id : UInt64} {ref : SessionRef} (h : server.table.lookup id = some ref) :
    server.session id = some (server.objects ref) := by
  rw [session, getSession, h]
  rfl

/-- The clock is not behind the last activity of a session. -/
def ClockAhead (server : Sessions) (now : UInt64) : Prop :=
  ∀ id session, server.session id = some session → session.lastActivity ≤ now

theorem clockAhead_iff {now : UInt64} : server.ClockAhead now ↔
    ∀ pair ∈ server.table.toPairs, (server.objects pair.2).lastActivity ≤ now := by
  constructor
  · rintro h ⟨id, ref⟩ hpair
    exact h id _ (session_of_lookup (Table.mem_toPairs_iff.mp hpair))
  · intro h id found hfound
    obtain ⟨ref, href, rfl⟩ := Option.map_eq_some_iff.mp hfound
    exact h (id, ref) (Table.mem_toPairs_iff.mpr href)

/-- Where the clock is ahead, the ids that are removed are those of the expired sessions. -/
theorem mem_expired_iff {sessionTimeoutSecs now : UInt64} (h : server.ClockAhead now)
    (id : UInt64) :
    id ∈ (server.table.toPairs.filter (server.lateIn sessionTimeoutSecs now)).map Prod.fst ↔
      server.Expired sessionTimeoutSecs now id := by
  have hlate : ∀ last : UInt64, last ≤ now →
      (sessionTimeoutSecs < now - last ↔ sessionTimeoutSecs.toNat < now.toNat - last.toNat) := by
    intro last hle
    rw [UInt64.lt_iff_toNat_lt, UInt64.toNat_sub_of_le _ _ hle]
  constructor
  · intro hmem
    obtain ⟨⟨id, ref⟩, hfilter, rfl⟩ := List.mem_map.mp hmem
    obtain ⟨hpair, hidle⟩ := List.mem_filter.mp hfilter
    have hsession := session_of_lookup (Table.mem_toPairs_iff.mp hpair)
    exact ⟨_, hsession, (hlate _ (h id _ hsession)).mp (of_decide_eq_true hidle)⟩
  · rintro ⟨found, hfound, hidle⟩
    obtain ⟨ref, href, rfl⟩ := Option.map_eq_some_iff.mp hfound
    refine List.mem_map.mpr ⟨(id, ref), List.mem_filter.mpr ⟨?_, ?_⟩, rfl⟩
    · exact Table.mem_toPairs_iff.mpr href
    · exact decide_eq_true ((hlate _ (h id _ hfound)).mpr hidle)

/-- A cleanup is exact if and only if the clock is not behind a session's last activity. -/
theorem cleansUp_iff (server : Sessions) (sessionTimeoutSecs now : UInt64) :
    server.CleansUp sessionTimeoutSecs now ↔ server.ClockAhead now := by
  constructor
  · rintro ⟨count, cleaned, hcleanup, -⟩
    rw [cleanupExpiredSessions, Outcome.bind_eq_ok_iff] at hcleanup
    obtain ⟨expired, hexpired, -⟩ := hcleanup
    exact clockAhead_iff.mpr ((server.expiredIds_eq_ok_iff _ _ _ _).mp hexpired).1
  · intro hclock
    let expired := (server.table.toPairs.filter (server.lateIn sessionTimeoutSecs now)).map Prod.fst
    have hexpired : server.expiredIds sessionTimeoutSecs now server.table.toPairs = .ok expired :=
      (server.expiredIds_eq_ok_iff _ _ _ _).mpr ⟨clockAhead_iff.mp hclock, rfl⟩
    have hmem : ∀ id, id ∈ expired ↔ server.Expired sessionTimeoutSecs now id :=
      mem_expired_iff hclock
    have hsession : ∀ id,
        (expired.foldl (fun server id => (server.removeSession id).2) server).session id =
          if id ∈ expired then none else server.session id := by
      intro id
      rw [session, getSession, lookup_removeAll, objects_removeAll]
      split <;> rfl
    refine ⟨expired.length, expired.foldl (fun server id => (server.removeSession id).2) server, ?_,
      fun id hid => ?_, fun id hid => ?_, server.size_removeAll ?_ ?_⟩
    · rw [cleanupExpiredSessions, hexpired]
      rfl
    · rw [hsession, if_pos ((hmem id).mpr hid)]
    · rw [hsession, if_neg (mt (hmem id).mp hid)]
    · exact server.table.nodup_keys_toPairs.sublist (List.filter_sublist.map Prod.fst)
    · intro id hid
      obtain ⟨pair, hpair, rfl⟩ := List.mem_map.mp hid
      have hlookup := Table.mem_toPairs_iff.mp (List.mem_of_mem_filter hpair)
      exact AList.lookup_isSome.mp (Option.isSome_of_eq_some hlookup)

/-- The clock is set back after a session was created. -/
theorem cleanup_clock_behind : ¬ ((new 10).createSession 10).2.CleansUp 3600 5 := by
  rintro ⟨count, cleaned, hcleanup, -⟩
  have hpanic : ((new 10).createSession 10).2.cleanupExpiredSessions 3600 5 = .panic := rfl
  rw [hpanic] at hcleanup
  cases hcleanup

end Sessions
end Dcp
