import Dcp.Library.Run
import Dcp.SessionCalls
import Dcp.SessionCleanup

/-!
The session limit under overlapping calls. `create_session` asks for the limit and inserts under
two separate locks, so the limit is kept exactly as long as the sessions that came in between leave
it a place. The ids come from a counter of 64 bits.
-/

namespace Dcp
open Library

def idsFrom1 (n : Nat) : List UInt64 := (List.range n).map fun k => UInt64.ofNat (k + 1)

theorem idsFrom1_succ (n : Nat) : idsFrom1 (n + 1) = idsFrom1 n ++ [UInt64.ofNat (n + 1)] := by
  rw [idsFrom1, List.range_succ, List.map_append]
  rfl

theorem idsFrom1_draw {issued draws : List UInt64} {counter : UInt64}
    (hissued : issued = idsFrom1 issued.length)
    (hcounter : counter = UInt64.ofNat (issued.length + 1))
    (hdraws : draws = [] ∨ draws = [counter]) :
    issued ++ draws = idsFrom1 (issued ++ draws).length ∧
      counter + UInt64.ofNat draws.length = UInt64.ofNat ((issued ++ draws).length + 1) := by
  obtain rfl | rfl := hdraws
  · rw [List.append_nil]
    exact ⟨hissued, (UInt64.add_zero counter).trans hcounter⟩
  · rw [List.length_append, List.length_singleton]
    refine ⟨?_, ?_⟩
    · rw [idsFrom1_succ, ← hissued, hcounter]
    · rw [hcounter, ← UInt64.ofNat_add]

/-- The ids repeat once the counter has gone round. -/
theorem nodup_idsFrom1_iff (n : Nat) : (idsFrom1 n).Nodup ↔ n ≤ 2 ^ 64 := by
  have hinj : ∀ x y : Nat, UInt64.ofNat (x + 1) = UInt64.ofNat (y + 1) ↔
      (x + 1) % 2 ^ 64 = (y + 1) % 2 ^ 64 := by
    intro x y
    rw [UInt64.ofNat_eq_iff_mod_eq_toNat, UInt64.toNat_ofNat']
  rw [idsFrom1, List.nodup_map_iff_inj_on List.nodup_range]
  simp only [List.mem_range, hinj]
  constructor
  · intro h
    by_contra hmany
    have hround := h 0 (by omega) (2 ^ 64) (by omega) (by omega)
    omega
  · intro hle x hx y hy hxy
    omega

/-- Sessions are taken out of the table or replaced there, and no id is drawn. -/
structure Sessions.Shrinks (server server' : Sessions) : Prop where
  table : ∀ id, id ∈ server'.table → id ∈ server.table
  size : server'.table.size ≤ server.table.size
  counter : server'.sessionCounter = server.sessionCounter
  maxSessions : server'.maxSessions = server.maxSessions

namespace Sessions.Shrinks
variable {server server' server'' : Sessions}

theorem refl (server : Sessions) : Shrinks server server :=
  ⟨fun _ => id, Nat.le_refl _, rfl, rfl⟩

theorem trans (h : Shrinks server server') (h' : Shrinks server' server'') :
    Shrinks server server'' :=
  ⟨fun id hmem => h.table id (h'.table id hmem), h'.size.trans h.size,
    h'.counter.trans h.counter, h'.maxSessions.trans h.maxSessions⟩

theorem remove (server : Sessions) (id : UInt64) :
    Shrinks server (server.removeSession id).2 := by
  refine ⟨fun _ hmem => (AList.mem_erase.mp hmem).2, ?_, rfl, rfl⟩
  cases hfound : server.table.lookup id with
  | none =>
      have hsame : (server.removeSession id).2.table = server.table :=
        Table.erase_of_lookup_none hfound
      rw [hsame]
  | some ref =>
      have hsize := Table.size_erase_of_lookup_some hfound
      exact Nat.le_of_succ_le hsize.le

theorem cleanup {sessionTimeoutSecs now : UInt64} {count : Nat}
    (h : server.cleanupExpiredSessions sessionTimeoutSecs now = .ok (count, server')) :
    Shrinks server server' := by
  rw [cleanupExpiredSessions, Outcome.bind_eq_ok_iff] at h
  obtain ⟨expired, -, h⟩ := h
  cases h
  clear sessionTimeoutSecs now
  induction expired generalizing server with
  | nil => exact refl server
  | cons id rest ih => exact (remove server id).trans ih

theorem place {session : Session} {ref : SessionRef}
    (h : server.getSession session.id = some ref) : Shrinks server (server.place session) := by
  refine ⟨?_, (Table.size_insert_of_lookup_some _ h).le, rfl, rfl⟩
  intro id hmem
  rcases (AList.mem_insert server.table).mp hmem with rfl | hmem
  · exact AList.lookup_isSome.mp (Option.isSome_of_eq_some h)
  · exact hmem

end Sessions.Shrinks

/-- What a step leads to, if it puts no new session into the table and no id waits after it. -/
def Sessions.Quiet (server : Sessions) (next : SharedSessions × SessionPoint) : Prop :=
  server.Shrinks next.1.server ∧ next.2.waitingId = none

/-- A step draws an id or inserts a session, or it does neither. -/
theorem SessionOverlap.step_cases (w : SessionOverlap) (point : SessionPoint) :
    (∃ now, point = .drawId now) ∨
      (∃ id now, point = .insert id now ∧ w.shared.poisoned = false) ∨
      w.shared.server.Quiet (w.shared.step point) ∧ w.draws point = [] := by
  cases point with
  | drawId now => exact .inl ⟨now, rfl⟩
  | insert id now =>
      cases hpoisoned : w.shared.poisoned with
      | false => exact .inr (.inl ⟨id, now, rfl, rfl⟩)
      | true =>
          refine .inr (.inr ⟨?_, rfl⟩)
          rw [SharedSessions.step, if_pos hpoisoned]
          exact ⟨.refl _, rfl⟩
  | checkLimit now =>
      refine .inr (.inr ⟨⟨.refl _, ?_⟩, rfl⟩)
      simp only [SharedSessions.step]
      split_ifs <;> rfl
  | findSession id now =>
      refine .inr (.inr ⟨⟨.refl _, ?_⟩, rfl⟩)
      simp only [SharedSessions.step]
      split
      · rfl
      · split <;> rfl
  | remove id =>
      refine .inr (.inr ⟨?_, rfl⟩)
      rw [SharedSessions.step]
      split
      · exact ⟨.refl _, rfl⟩
      · exact ⟨.remove _ _, rfl⟩
  | replace id now =>
      refine .inr (.inr ⟨?_, rfl⟩)
      rw [SharedSessions.step]
      split
      · exact ⟨.refl _, rfl⟩
      · split
        · exact ⟨.refl _, rfl⟩
        · next ref hfound => exact ⟨.place hfound, rfl⟩
  | cleanup now =>
      refine .inr (.inr ⟨?_, rfl⟩)
      rw [SharedSessions.step]
      split
      · exact ⟨.refl _, rfl⟩
      · split
        · next hcleaned => exact ⟨.cleanup hcleaned, rfl⟩
        · next e _ => exact e.elim
        · exact ⟨.refl _, rfl⟩
  | returned result => exact .inr (.inr ⟨⟨.refl _, rfl⟩, rfl⟩)

namespace SessionOverlap
variable {w : SessionOverlap} {maxSessions index : Nat} {call : SessionCall}

/-- No more sessions than the limit, and no id drawn twice. -/
structure WithinLimit (maxSessions : Nat) (w : SessionOverlap) : Prop where
  sessions : w.size ≤ maxSessions
  ids : w.issued.Nodup

/-- The sessions that came in since the call asked for the limit, with those it saw, leave it a
place; and the counter has not gone round. -/
def InTime (w : SessionOverlap) : SessionStep → Prop
  | .advance index =>
      match w.calls[index]? with
      | some ⟨.drawId _, _⟩ => w.issued.length < 2 ^ 64
      | some ⟨.insert _ _, seen⟩ => w.shared.poisoned = false →
          seen.sessions + (w.entered - seen.entered) <
            w.shared.server.maxSessions + (w.left - seen.left)
      | _ => True
  | _ => True

/-- The accounts of the table are right, also those that calls have seen; and every id that waits
to be used was drawn, by one call, and is not in the table. -/
structure Sound (maxSessions : Nat) (w : SessionOverlap) : Prop where
  limit : w.shared.server.maxSessions = maxSessions
  within : w.size ≤ maxSessions
  account : w.size + w.left = w.entered
  seen : ∀ call ∈ w.calls, call.seen.sessions + call.seen.left = call.seen.entered ∧
    call.seen.entered ≤ w.entered ∧ call.seen.left ≤ w.left
  issued : w.issued = idsFrom1 w.issued.length
  counter : w.shared.server.sessionCounter = UInt64.ofNat (w.issued.length + 1)
  few : w.issued.length ≤ 2 ^ 64
  table : ∀ id ∈ w.shared.server.table, id ∈ w.issued
  waiting : ∀ call ∈ w.calls, ∀ id, call.point.waitingId = some id →
    id ∈ w.issued ∧ id ∉ w.shared.server.table
  apart : ∀ (i j : Nat) (ci cj : SessionCall) (id : UInt64), w.calls[i]? = some ci →
    w.calls[j]? = some cj → ci.point.waitingId = some id → cj.point.waitingId = some id → i = j

theorem sound_start (maxSessions : Nat) (sessionTimeoutSecs : UInt64) :
    Sound maxSessions (start maxSessions sessionTimeoutSecs) := by
  refine ⟨rfl, Nat.zero_le _, rfl, ?_, rfl, rfl, Nat.zero_le _, ?_, ?_, ?_⟩
  · intro call hcall
    exact absurd hcall List.not_mem_nil
  · intro id hid
    exact absurd hid (AList.notMem_empty id)
  · intro call hcall
    exact absurd hcall List.not_mem_nil
  · intro i _ call _ _ hcall
    exact absurd (List.mem_of_getElem? hcall) List.not_mem_nil

theorem Sound.withinLimit (h : Sound maxSessions w) : WithinLimit maxSessions w := by
  refine ⟨h.within, ?_⟩
  rw [h.issued]
  exact (nodup_idsFrom1_iff _).mpr h.few

theorem Sound.enter (h : Sound maxSessions w) {point : SessionPoint}
    (hpoint : point.waitingId = none) : Sound maxSessions (w.enter point) := by
  have hold : ∀ (i : Nat) (c : SessionCall) (id : UInt64), (w.enter point).calls[i]? = some c →
      c.point.waitingId = some id → w.calls[i]? = some c := by
    intro i c id hc hid
    have hlt : i < (w.calls ++ [(⟨point, 0, 0, 0⟩ : SessionCall)]).length :=
      (List.getElem?_eq_some_iff.mp hc).1
    rw [List.length_append, List.length_singleton] at hlt
    change (w.calls ++ [(⟨point, 0, 0, 0⟩ : SessionCall)])[i]? = some c at hc
    rcases Nat.lt_succ_iff_lt_or_eq.mp hlt with hlt | rfl
    · rwa [List.getElem?_append_left hlt] at hc
    · rw [List.getElem?_concat_length] at hc
      cases hc
      rw [hpoint] at hid
      cases hid
  refine ⟨h.limit, h.within, h.account, ?_, h.issued, h.counter, h.few, h.table, ?_, ?_⟩
  · intro c hc
    rcases List.mem_append.mp hc with hc | hc
    · exact h.seen c hc
    · rw [List.mem_singleton.mp hc]
      exact ⟨rfl, Nat.zero_le _, Nat.zero_le _⟩
  · intro c hc id hid
    obtain ⟨i, hi⟩ := List.mem_iff_getElem?.mp hc
    exact h.waiting c (List.mem_of_getElem? (hold i c id hi hid)) id hid
  · intro i j ci cj id hi hj hidi hidj
    exact h.apart i j ci cj id (hold i ci id hi hidi) (hold j cj id hj hidj) hidi hidj

section Advance
variable (h : Sound maxSessions w) (hindex : w.calls[index]? = some call)
include h

theorem Sound.account_advance :
    (w.advance index call).size + (w.advance index call).left = (w.advance index call).entered := by
  have haccount := h.account
  change (w.shared.step call.point).1.server.table.size +
      (w.left + (w.size - (w.shared.step call.point).1.server.table.size)) =
    w.entered + ((w.shared.step call.point).1.server.table.size - w.size)
  omega

theorem Sound.counter_notMem (hfew : w.issued.length < 2 ^ 64) :
    w.shared.server.sessionCounter ∉ w.issued := by
  have hnodup := (nodup_idsFrom1_iff (w.issued.length + 1)).mpr hfew
  rw [idsFrom1_succ, ← h.issued, ← h.counter, List.nodup_append] at hnodup
  intro hmem
  exact hnodup.2.2 _ hmem _ (List.mem_singleton_self _) rfl

include hindex

theorem Sound.seen_advance :
    ∀ c ∈ (w.advance index call).calls, c.seen.sessions + c.seen.left = c.seen.entered ∧
      c.seen.entered ≤ (w.advance index call).entered ∧
      c.seen.left ≤ (w.advance index call).left := by
  have hold : ∀ c : SessionCall, c.seen.sessions + c.seen.left = c.seen.entered ∧
      c.seen.entered ≤ w.entered ∧ c.seen.left ≤ w.left →
        c.seen.sessions + c.seen.left = c.seen.entered ∧
          c.seen.entered ≤ (w.advance index call).entered ∧
          c.seen.left ≤ (w.advance index call).left :=
    fun c hc => ⟨hc.1, hc.2.1.trans (Nat.le_add_right _ _), hc.2.2.trans (Nat.le_add_right _ _)⟩
  intro c hc
  rcases List.mem_or_eq_of_mem_set hc with hc | rfl
  · exact hold c (h.seen c hc)
  · refine hold _ ?_
    change (w.seenBy call).sessions + (w.seenBy call).left = (w.seenBy call).entered ∧
      (w.seenBy call).entered ≤ w.entered ∧ (w.seenBy call).left ≤ w.left
    unfold seenBy
    split
    · exact ⟨h.account, Nat.le_refl _, Nat.le_refl _⟩
    · exact h.seen call (List.mem_of_getElem? hindex)

omit h in
/-- A call that waits after the step waited before it, unless it is the one that took the step. -/
theorem waiting_before {i : Nat} {c : SessionCall} {id : UInt64}
    (hc : (w.advance index call).calls[i]? = some c) (hid : c.point.waitingId = some id) :
    i ≠ index ∧ w.calls[i]? = some c ∨
      i = index ∧ (w.shared.step call.point).2.waitingId = some id := by
  change (w.calls.set index ⟨(w.shared.step call.point).2, w.seenBy call⟩)[i]? = some c at hc
  by_cases hi : i = index
  · subst hi
    have hlt := (List.getElem?_eq_some_iff.mp hindex).1
    rw [List.getElem?_set_self hlt] at hc
    cases hc
    exact .inr ⟨rfl, hid⟩
  · rw [List.getElem?_set_ne (Ne.symm hi)] at hc
    exact .inl ⟨hi, hc⟩

theorem Sound.advance_of_draws_none (hdraws : w.draws call.point = [])
    (hwaits : (w.shared.step call.point).2.waitingId = none)
    (hmax : (w.shared.step call.point).1.server.maxSessions = w.shared.server.maxSessions)
    (hcounter : (w.shared.step call.point).1.server.sessionCounter =
      w.shared.server.sessionCounter)
    (hsize : (w.shared.step call.point).1.server.table.size ≤ maxSessions)
    (htable : ∀ id ∈ (w.shared.step call.point).1.server.table, id ∈ w.shared.server.table ∨
      call.point.waitingId = some id) :
    Sound maxSessions (w.advance index call) := by
  have hissued : (w.advance index call).issued = w.issued := by
    change w.issued ++ w.draws call.point = w.issued
    rw [hdraws, List.append_nil]
  have hold : ∀ {i : Nat} {c : SessionCall} {id : UInt64},
      (w.advance index call).calls[i]? = some c → c.point.waitingId = some id →
        i ≠ index ∧ w.calls[i]? = some c := by
    intro i c id hc hid
    rcases waiting_before hindex hc hid with hc | ⟨-, hnew⟩
    · exact hc
    · rw [hwaits] at hnew
      cases hnew
  refine ⟨hmax.trans h.limit, hsize, h.account_advance, h.seen_advance hindex, ?_, ?_, ?_, ?_, ?_,
    ?_⟩
  · rw [hissued]
    exact h.issued
  · rw [hissued]
    exact hcounter.trans h.counter
  · rw [hissued]
    exact h.few
  · intro id hid
    rw [hissued]
    rcases htable id hid with hid | hid
    · exact h.table id hid
    · exact (h.waiting call (List.mem_of_getElem? hindex) id hid).1
  · intro c hc id hid
    obtain ⟨i, hi⟩ := List.mem_iff_getElem?.mp hc
    obtain ⟨hne, hbefore⟩ := hold hi hid
    obtain ⟨hmem, hnot⟩ := h.waiting c (List.mem_of_getElem? hbefore) id hid
    rw [hissued]
    refine ⟨hmem, fun hin => ?_⟩
    rcases htable id hin with hin | hused
    · exact hnot hin
    · exact hne (h.apart i index c call id hbefore hindex hid hused)
  · intro i j ci cj id hi hj hidi hidj
    exact h.apart i j ci cj id (hold hi hidi).2 (hold hj hidj).2 hidi hidj

theorem Sound.advance_drawId {now : UInt64} (hpoint : call.point = .drawId now)
    (hfew : w.issued.length < 2 ^ 64) : Sound maxSessions (w.advance index call) := by
  have hissued : (w.advance index call).issued = w.issued ++ [w.shared.server.sessionCounter] := by
    change w.issued ++ w.draws call.point = _
    rw [hpoint]
    rfl
  have hserver : (w.advance index call).shared.server =
      { w.shared.server with sessionCounter := w.shared.server.sessionCounter + 1 } := by
    change (w.shared.step call.point).1.server = _
    rw [hpoint]
    rfl
  have hwaits : (w.shared.step call.point).2.waitingId = some w.shared.server.sessionCounter := by
    rw [hpoint]
    rfl
  have hfresh := h.counter_notMem hfew
  have htable : (w.advance index call).shared.server.table = w.shared.server.table := by
    rw [hserver]
  have hsize : (w.advance index call).size = w.size := by
    rw [size, htable, size]
  refine ⟨?_, hsize ▸ h.within, h.account_advance, h.seen_advance hindex, ?_, ?_, ?_, ?_, ?_, ?_⟩
  · rw [hserver]
    exact h.limit
  · rw [hissued, List.length_append, List.length_singleton, idsFrom1_succ, ← h.issued, h.counter]
  · rw [hissued, List.length_append, List.length_singleton, hserver]
    change w.shared.server.sessionCounter + 1 = _
    rw [h.counter, UInt64.ofNat_add w.issued.length.succ 1]
    rfl
  · rw [hissued, List.length_append, List.length_singleton]
    exact hfew
  · intro id hid
    rw [hissued]
    rw [htable] at hid
    exact List.mem_append_left _ (h.table id hid)
  · intro c hc id hid
    obtain ⟨i, hi⟩ := List.mem_iff_getElem?.mp hc
    rw [hissued, htable]
    rcases waiting_before hindex hi hid with ⟨-, hbefore⟩ | ⟨-, hnew⟩
    · obtain ⟨hmem, hnot⟩ := h.waiting c (List.mem_of_getElem? hbefore) id hid
      exact ⟨List.mem_append_left _ hmem, hnot⟩
    · obtain rfl := Option.some.inj (hwaits.symm.trans hnew)
      exact ⟨List.mem_append_right _ (List.mem_singleton_self _), fun hin => hfresh (h.table _ hin)⟩
  · intro i j ci cj id hi hj hidi hidj
    -- the id that is new is not one that a call was waiting to use
    have hnew : ∀ {k : Nat} {c : SessionCall}, w.calls[k]? = some c →
        c.point.waitingId = some id → (w.shared.step call.point).2.waitingId = some id → False := by
      intro k c hc hid hnew
      obtain rfl := Option.some.inj (hwaits.symm.trans hnew)
      exact hfresh (h.waiting c (List.mem_of_getElem? hc) _ hid).1
    rcases waiting_before hindex hi hidi with ⟨-, hi'⟩ | ⟨hi', hnewi⟩
    · rcases waiting_before hindex hj hidj with ⟨-, hj'⟩ | ⟨-, hnewj⟩
      · exact h.apart i j ci cj id hi' hj' hidi hidj
      · exact (hnew hi' hidi hnewj).elim
    · rcases waiting_before hindex hj hidj with ⟨-, hj'⟩ | ⟨hj', -⟩
      · exact (hnew hj' hidj hnewi).elim
      · exact hi'.trans hj'.symm

end Advance

theorem size_advance_insert (h : Sound maxSessions w) (hindex : w.calls[index]? = some call)
    {id now : UInt64} (hpoint : call.point = .insert id now)
    (hpoisoned : w.shared.poisoned = false) :
    (w.shared.step call.point).1 = w.shared.setServer (w.shared.server.place (.new id now)) ∧
      (w.advance index call).size = w.size + 1 := by
  have hstep : (w.shared.step call.point).1 =
      w.shared.setServer (w.shared.server.place (.new id now)) := by
    rw [hpoint]
    simp only [SharedSessions.step, hpoisoned, Bool.false_eq_true, if_false]
  have hnot : id ∉ w.shared.server.table := by
    refine (h.waiting call (List.mem_of_getElem? hindex) id ?_).2
    rw [hpoint]
    rfl
  refine ⟨hstep, ?_⟩
  change (w.shared.step call.point).1.server.table.size = w.size + 1
  rw [hstep]
  exact Table.size_insert_of_lookup_none _ (AList.lookup_eq_none.mpr hnot)

theorem Sound.place_left_iff (h : Sound maxSessions w) (hindex : w.calls[index]? = some call) :
    call.seen.sessions + (w.entered - call.seen.entered) <
        w.shared.server.maxSessions + (w.left - call.seen.left) ↔ w.size < maxSessions := by
  obtain ⟨hseen, hentered, hleft⟩ := h.seen call (List.mem_of_getElem? hindex)
  have haccount := h.account
  rw [h.limit]
  omega

theorem sound_step (h : Sound maxSessions w) {action : SessionStep} (hintime : w.InTime action) :
    Sound maxSessions (w.step action) := by
  cases action with
  | create | remove | upgrade | cleanup => exact h.enter rfl
  | through ref op =>
      exact ⟨h.limit, h.within, h.account, h.seen, h.issued, h.counter, h.few, h.table, h.waiting,
        h.apart⟩
  | advance index =>
      cases hindex : w.calls[index]? with
      | none =>
          simp only [step, hindex]
          exact h
      | some call =>
          simp only [step, hindex]
          simp only [InTime, hindex] at hintime
          obtain ⟨point, seen⟩ := call
          rcases w.step_cases point with ⟨now, rfl⟩ | ⟨id, now, rfl, hpoisoned⟩ |
              ⟨⟨hshrinks, hwaits⟩, hdraws⟩
          · exact h.advance_drawId hindex rfl hintime
          · obtain ⟨hstep, hsize⟩ := size_advance_insert h hindex rfl hpoisoned
            have hroom := (h.place_left_iff hindex).mp (hintime hpoisoned)
            refine h.advance_of_draws_none hindex rfl ?_ ?_ ?_ (hsize.le.trans hroom) ?_
            · simp only [SharedSessions.step, hpoisoned, Bool.false_eq_true, if_false]
              rfl
            · rw [hstep]
              rfl
            · rw [hstep]
              rfl
            · intro id' hid'
              rw [hstep] at hid'
              rcases (AList.mem_insert w.shared.server.table).mp hid' with rfl | hid'
              · exact .inr rfl
              · exact .inl hid'
          · exact h.advance_of_draws_none hindex hdraws hwaits hshrinks.maxSessions hshrinks.counter
              (hshrinks.size.trans h.within) fun id hid => .inl (hshrinks.table id hid)

theorem withinLimit_iff_inTime (h : Sound maxSessions w) (action : SessionStep) :
    WithinLimit maxSessions (w.step action) ↔ w.InTime action := by
  refine ⟨fun hwithin => ?_, fun hintime => (sound_step h hintime).withinLimit⟩
  cases action with
  | create | remove | upgrade | cleanup | through => trivial
  | advance index =>
      cases hindex : w.calls[index]? with
      | none => simp only [InTime, hindex]
      | some call =>
          obtain ⟨point, seen⟩ := call
          simp only [step, hindex] at hwithin
          simp only [InTime, hindex]
          cases point with
          | drawId now =>
              have hids : (w.issued ++ [w.shared.server.sessionCounter]).Nodup := hwithin.ids
              rw [h.issued, h.counter, ← idsFrom1_succ, nodup_idsFrom1_iff] at hids
              exact hids
          | insert id now =>
              intro hpoisoned
              obtain ⟨-, hsize⟩ := size_advance_insert h hindex rfl hpoisoned
              have hle := hwithin.sessions
              rw [hsize] at hle
              exact (h.place_left_iff hindex).mpr hle
          | _ => trivial

/-- The limit holds, and no id is used twice, in every state that a run reaches, exactly if at each
insertion the sessions that came in since the call asked for the limit leave it a place, and the
counter of ids has not gone round. -/
theorem within_limit_iff (maxSessions : Nat) (sessionTimeoutSecs : UInt64)
    (actions : List SessionStep) :
    EveryStep step (fun w action => WithinLimit maxSessions (w.step action))
        (start maxSessions sessionTimeoutSecs) actions ↔
      EveryStep step InTime (start maxSessions sessionTimeoutSecs) actions := by
  have hiff : ∀ w action, Sound maxSessions w →
      (WithinLimit maxSessions (w.step action) ↔ w.InTime action) :=
    fun _ action h => withinLimit_iff_inTime h action
  exact EveryStep.iff_of_invariant hiff (fun _ _ h hintime => sound_step h hintime)
    (sound_start maxSessions sessionTimeoutSecs) actions

/-- Two calls ask for the last place before one of them has inserted its session. -/
def twoCreates : List SessionStep :=
  [.create 7, .create 7, .advance 0, .advance 1, .advance 0, .advance 1, .advance 0, .advance 1]

theorem sessions_exceed_limit :
    ¬ EveryStep step (fun w action => WithinLimit 1 (w.step action)) (start 1 3600) twoCreates := by
  rintro ⟨-, -, -, -, -, -, -, hlast, -⟩
  exact absurd hlast.sessions (by decide)

end SessionOverlap
end Dcp
