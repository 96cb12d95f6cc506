import Dcp.Library.Accounting
import Dcp.Library.Quota
import Dcp.Library.Run
import Dcp.Multiplex.PipelineConcurrent
import Dcp.Multiplex.PipelineSafety

/-!
The limit in flight under overlapping calls. `send` asks the counter, and its request enters the
table and the counter several points later. The table stays within the limit as long as the counter
together with the requests that have asked and are not counted yet is below it, a request that is
taken back is still there, and a cancellation sets the counter back while no other call is between
the table and the counter.
-/

namespace Dcp
open Library

namespace ClientPoint

def stage : ClientPoint → Stage
  | .openStream _ | .drawId .. | .register .. => .entering
  | .countUp .. => .uncounted
  | .countBack .. | .countDown .. => .leaving
  | _ => .outside

def holds : ClientPoint → Nat
  | .cancelEach _ => 1
  | _ => 0

end ClientPoint

/-- The parts of the client that the limit depends on stay. -/
structure SameCounts (s s' : SharedClient) : Prop where
  pending : s'.client.pending = s.client.pending
  inFlight : s'.client.inFlight = s.client.inFlight
  maxInFlight : s'.client.maxInFlight = s.client.maxInFlight
  locked : s'.locked = s.locked

theorem SameCounts.refl (s : SharedClient) : SameCounts s s := ⟨rfl, rfl, rfl, rfl⟩

namespace ClientOverlap
variable {w : ClientOverlap} {maxInFlight : UInt64} {index : Nat} {point point' : ClientPoint}
  {shared : SharedClient}

def stages (w : ClientOverlap) : List Stage := w.calls.map ClientPoint.stage

def quota (w : ClientOverlap) : Quota :=
  ⟨w.shared.client.pending.size, w.shared.client.inFlight.toNat, w.stages⟩

/-- The table is within the limit, with those on their way; while a cancellation holds the lock,
the table is empty. -/
structure Sound (maxInFlight : UInt64) (w : ClientOverlap) : Prop where
  limit : w.shared.client.maxInFlight = maxInFlight
  lock : (w.calls.map ClientPoint.holds).sum = w.shared.locked.toNat
  emptied : w.shared.locked = true → w.shared.client.pending.size = 0
  within : w.quota.Sound (2 ^ 64) maxInFlight.toNat

/-- Who passes the check finds room for those that passed it before and are not counted yet; who
takes a request back finds it; the counter is set back while nobody is between table and counter. -/
def LimitAgrees (w : ClientOverlap) : ClientStep → Prop
  | .advance index =>
      match w.calls[index]? with
      | some (.checkLimit _) => w.shared.client.canSend = true →
          w.shared.client.inFlight.toNat + w.stages.count .entering + w.stages.count .uncounted <
            w.shared.client.maxInFlight.toNat
      | some (.takeBack _ requestId _) => w.shared.locked = false →
          (w.shared.client.pending.lookup requestId).isSome
      | some (.cancelEach []) => w.stages.count .uncounted = 0 ∧ w.stages.count .leaving = 0
      | _ => True
  | _ => True

theorem sound_start (connection : MultiplexedConnection) (maxInFlight : UInt64) :
    Sound maxInFlight (start connection maxInFlight) where
  limit := rfl
  lock := rfl
  emptied h := by cases h
  within := Quota.sound_empty _ _

theorem Sound.enter (h : Sound maxInFlight w) (hstage : point.stage = .outside)
    (hholds : point.holds = 0) : Sound maxInFlight (w.enter point) := by
  refine ⟨h.limit, ?_, h.emptied, ?_⟩
  · refine Eq.trans ?_ h.lock
    simp [ClientOverlap.enter, hholds]
  · have hstages : (w.enter point).stages = w.stages ++ [.outside] := by
      simp [stages, ClientOverlap.enter, hstage]
    have hjoin := h.within.join
    rw [← hstages] at hjoin
    exact hjoin

section
variable (h : Sound maxInFlight w) (hindex : w.calls[index]? = some point)
include hindex

theorem stages_get : w.stages[index]? = some point.stage := by
  rw [stages, List.getElem?_map, hindex]
  rfl

include h

theorem Sound.advance (hmax : shared.client.maxInFlight = w.shared.client.maxInFlight)
    (hlock : shared.locked.toNat + point.holds = w.shared.locked.toNat + point'.holds)
    (hemptied : shared.locked = true → shared.client.pending.size = 0)
    (hwithin : Quota.Sound (2 ^ 64) maxInFlight.toNat
      ⟨shared.client.pending.size, shared.client.inFlight.toNat,
        w.stages.set index point'.stage⟩) :
    Sound maxInFlight ⟨shared, w.calls.set index point'⟩ := by
  have hholds := sum_map_set ClientPoint.holds point' hindex
  rw [h.lock] at hholds
  refine ⟨hmax.trans h.limit, ?_, hemptied, ?_⟩
  · change ((w.calls.set index point').map ClientPoint.holds).sum = shared.locked.toNat
    omega
  · rw [stages, ← List.map_set] at hwithin
    exact hwithin

theorem Sound.same (hsame : SameCounts w.shared shared) (hholds : point'.holds = point.holds)
    (hwithin : Quota.Sound (2 ^ 64) maxInFlight.toNat
      ⟨w.shared.client.pending.size, w.shared.client.inFlight.toNat,
        w.stages.set index point'.stage⟩) :
    Sound maxInFlight ⟨shared, w.calls.set index point'⟩ := by
  refine h.advance hindex hsame.maxInFlight ?_ ?_ ?_
  · rw [hsame.locked, hholds]
  · rw [hsame.locked, hsame.pending]
    exact h.emptied
  · rw [hsame.pending, hsame.inFlight]
    exact hwithin

/-- A step that stays where it is in the quota. -/
theorem Sound.quiet (hsame : SameCounts w.shared shared) (hholds : point'.holds = point.holds)
    (hstage : point'.stage = point.stage) :
    Sound maxInFlight ⟨shared, w.calls.set index point'⟩ := by
  refine h.same hindex hsame hholds ?_
  rw [hstage, set_of_getElem? (stages_get hindex)]
  exact h.within

theorem Sound.waits : Sound maxInFlight ⟨w.shared, w.calls.set index point⟩ :=
  h.quiet hindex (.refl _) rfl rfl

theorem Sound.abandon (hsame : SameCounts w.shared shared) (hholds : point'.holds = point.holds)
    (hstage : point.stage = .entering) (hstage' : point'.stage = .outside) :
    Sound maxInFlight ⟨shared, w.calls.set index point'⟩ := by
  have hi := stages_get hindex
  rw [hstage] at hi
  refine h.same hindex hsame hholds ?_
  rw [hstage']
  exact h.within.abandon hi

theorem Sound.leave (hlocked : w.shared.locked = false) {pending : Table UInt64 PendingRequest}
    (hsize : pending.size + 1 = w.shared.client.pending.size) (hholds : point.holds = 0)
    (hholds' : point'.holds = 0) (hstage : point.stage = .outside)
    (hstage' : point'.stage = .leaving) :
    Sound maxInFlight ⟨w.shared.setPending pending, w.calls.set index point'⟩ := by
  have hi := stages_get hindex
  rw [hstage] at hi
  refine h.advance hindex rfl ?_ ?_ ?_
  · rw [hholds, hholds']
    rfl
  · intro hlock
    exact absurd (hlocked.symm.trans hlock) Bool.false_ne_true
  · rw [hstage']
    exact h.within.leave hi hsize

theorem Sound.release (hholds : point.holds = 0) (hholds' : point'.holds = 0)
    (hstage : point.stage = .leaving) (hstage' : point'.stage = .outside) :
    Sound maxInFlight
      ⟨w.shared.setInFlight (w.shared.client.inFlight - 1), w.calls.set index point'⟩ := by
  have hi := stages_get hindex
  rw [hstage] at hi
  refine h.advance hindex rfl ?_ h.emptied ?_
  · rw [hholds, hholds']
    rfl
  · rw [hstage']
    refine h.within.release hi ?_
    change (w.shared.client.inFlight - 1).toNat + 1 ≡ w.shared.client.inFlight.toNat [MOD 2 ^ 64]
    rw [UInt64.toNat_sub, UInt64.toNat_one, Nat.ModEq]
    omega

theorem Sound.take (hlocked : w.shared.locked = false) (hholds : point.holds = 0)
    (hstage : point.stage = .outside) (order : PendingOrder) (streamId : UInt16)
    (response : Response) :
    Sound maxInFlight ⟨(w.shared.take order streamId response).1,
      w.calls.set index (w.shared.take order streamId response).2⟩ := by
  unfold SharedClient.take
  obtain ⟨id, request, hlookup, -, htake⟩ | ⟨-, htake⟩ :=
    w.shared.client.takePending_cases order streamId
  · rw [htake]
    exact h.leave hindex hlocked (Table.size_erase_of_lookup_some hlookup) hholds rfl hstage rfl
  · rw [htake]
    exact h.quiet hindex (.refl _) hholds.symm hstage.symm

theorem Sound.advances (hagree : w.LimitAgrees (.advance index)) :
    Sound maxInFlight
      ⟨(w.shared.step point).1, w.calls.set index (w.shared.step point).2⟩ := by
  have hconnection : ∀ connection, SameCounts w.shared (w.shared.setConnection connection) :=
    fun _ => ⟨rfl, rfl, rfl, rfl⟩
  have hresponse : ∀ request response,
      SameCounts w.shared (w.shared.sendResponse request response) :=
    fun _ _ => ⟨rfl, rfl, rfl, rfl⟩
  simp only [LimitAgrees, hindex] at hagree
  cases point with
  | checkLimit data =>
      dsimp only [SharedClient.step]
      split
      · next hroom =>
          refine h.same hindex (.refl _) rfl (h.within.letIn (stages_get hindex) ?_ ?_)
          · exact maxInFlight.toNat_lt
          · exact h.limit ▸ hagree hroom
      · exact h.quiet hindex (.refl _) rfl rfl
  | openStream data =>
      dsimp only [SharedClient.step]
      split
      · exact h.quiet hindex (hconnection _) rfl rfl
      · exact h.abandon hindex (hconnection _) rfl rfl rfl
  | drawId streamId data => exact h.quiet hindex ⟨rfl, rfl, rfl, rfl⟩ rfl rfl
  | register channel streamId requestId data =>
      dsimp only [SharedClient.step]
      split
      · exact h.waits hindex
      · next hlocked =>
          refine h.advance hindex rfl rfl ?_ (h.within.enter (stages_get hindex) ?_)
          · exact fun hlock => absurd hlock hlocked
          · cases hlookup : w.shared.client.pending.lookup requestId with
            | none => exact .inl (Table.size_insert_of_lookup_none _ hlookup)
            | some old => exact .inr (Table.size_insert_of_lookup_some _ hlookup)
  | countUp channel streamId requestId data =>
      refine h.advance hindex rfl rfl h.emptied (h.within.count (stages_get hindex) ?_)
      change (w.shared.client.inFlight + 1).toNat ≡ w.shared.client.inFlight.toNat + 1 [MOD 2 ^ 64]
      rw [UInt64.toNat_add, UInt64.toNat_one]
      exact Nat.mod_modEq _ _
  | sendData channel streamId requestId data =>
      dsimp only [SharedClient.step]
      split
      · exact h.quiet hindex (hconnection _) rfl rfl
      · exact h.quiet hindex (hconnection _) rfl rfl
  | takeBack streamId requestId error =>
      dsimp only [SharedClient.step]
      split
      · exact h.waits hindex
      · next hlocked =>
          have hunlocked : w.shared.locked = false := by simpa using hlocked
          obtain ⟨request, hlookup⟩ := Option.isSome_iff_exists.mp (hagree hunlocked)
          exact h.leave hindex hunlocked (Table.size_erase_of_lookup_some hlookup) rfl rfl rfl rfl
  | countBack streamId error => exact h.release hindex rfl rfl rfl rfl
  | rollback streamId error => exact h.quiet hindex (hconnection _) rfl rfl
  | processResponse order streamId data =>
      dsimp only [SharedClient.step]
      split
      · exact h.waits hindex
      · next hlocked => exact h.take hindex (by simpa using hlocked) rfl rfl order streamId _
  | processError order streamId error =>
      dsimp only [SharedClient.step]
      split
      · exact h.waits hindex
      · next hlocked => exact h.take hindex (by simpa using hlocked) rfl rfl order streamId _
  | countDown streamId request response => exact h.release hindex rfl rfl rfl rfl
  | respond streamId request response =>
      dsimp only [SharedClient.step]
      split
      · exact h.quiet hindex (hresponse _ _) rfl rfl
      · exact h.quiet hindex (hresponse _ _) rfl rfl
  | closeStream streamId => exact h.quiet hindex (hconnection _) rfl rfl
  | cancelAll order =>
      dsimp only [SharedClient.step]
      split
      · exact h.waits hindex
      · next hlocked =>
          have hunlocked : w.shared.locked = false := by simpa using hlocked
          have hstages : w.stages.set index .outside = w.stages :=
            set_of_getElem? (stages_get hindex)
          refine h.advance hindex rfl ?_ (fun _ => rfl) ?_
          · rw [hunlocked]
            rfl
          · change Quota.Sound _ _ ⟨_, _, w.stages.set index .outside⟩
            rw [hstages]
            exact h.within.drain
  | cancelEach requests =>
      cases requests with
      | cons request requests => exact h.quiet hindex (hresponse _ _) rfl rfl
      | nil =>
          -- The lock is held since the table was emptied.
          have hone := le_sum_map ClientPoint.holds (List.mem_of_getElem? hindex)
          rw [h.lock] at hone
          have hlocked : w.shared.locked = true := by
            cases hlock : w.shared.locked with
            | true => rfl
            | false =>
                rw [hlock] at hone
                exact absurd hone (by decide)
          have hstages : w.stages.set index .outside = w.stages :=
            set_of_getElem? (stages_get hindex)
          refine h.advance hindex rfl ?_ (fun hfalse => nomatch hfalse) ?_
          · rw [hlocked]
            rfl
          · change Quota.Sound _ _ ⟨_, _, w.stages.set index .outside⟩
            rw [hstages]
            exact h.within.reset (h.emptied hlocked) hagree.1 hagree.2
  | returned result => exact h.waits hindex

end

theorem sound_step (h : Sound maxInFlight w) {action : ClientStep}
    (hagree : w.LimitAgrees action) : Sound maxInFlight (w.step action) := by
  cases action with
  | send | processResponse | processError | cancelAll => exact h.enter rfl rfl
  | connection connection => exact ⟨h.limit, h.lock, h.emptied, h.within⟩
  | advance index =>
      cases hindex : w.calls[index]? with
      | none =>
          simp only [step, hindex]
          exact h
      | some point =>
          simp only [step, hindex]
          exact h.advances hindex hagree

/-- In every run whose checks see the requests on their way, whose taken back requests are there
and whose cancellations meet no call between the table and the counter, the requests that wait are
within the limit in every state reached. -/
theorem pending_within_limit (connection : MultiplexedConnection) (maxInFlight : UInt64)
    (steps : List ClientStep)
    (hrun : EveryStep step LimitAgrees (start connection maxInFlight) steps)
    (front : List ClientStep) (hfront : front <+: steps) :
    (front.foldl step (start connection maxInFlight)).shared.client.pending.size ≤
      maxInFlight.toNat := by
  obtain ⟨back, rfl⟩ := hfront
  have hsound : Sound maxInFlight (front.foldl step (start connection maxInFlight)) :=
    hrun.append_left.invariant (fun _ _ h hagree => sound_step h hagree) (sound_start _ _)
  exact hsound.within.held_le

/-- Two requests are sent at once, one step each in turn. -/
def twoSends : List ClientStep :=
  [.send [7], .send [8]] ++ (List.replicate 6 [.advance 0, .advance 1]).flatten

theorem pending_within_limit_twoSends :
    let w := twoSends.foldl step (start (.withLimits 8 65536) 2)
    w.calls = [.returned (.ok (some 0)), .returned (.ok (some 1))] ∧
      w.shared.client.pending.size ≤ 2 := by
  have hagree : EveryStep step LimitAgrees (start (.withLimits 8 65536) 2) twoSends :=
    ⟨trivial, trivial, fun _ => by decide +kernel, fun _ => by decide +kernel, trivial, trivial,
      trivial, trivial, trivial, trivial, trivial, trivial, trivial, trivial, trivial⟩
  exact ⟨rfl, pending_within_limit (.withLimits 8 65536) 2 twoSends hagree twoSends
    (List.prefix_refl _)⟩

/-- Both ask for the last place before one of them is counted. -/
theorem pending_exceeds_limit :
    let w := twoSends.foldl step (start (.withLimits 8 65536) 1)
    w.shared.client.pending.size = 2 ∧ w.shared.client.maxInFlight = 1 ∧
      w.calls = [.returned (.ok (some 0)), .returned (.ok (some 1))] := by
  refine ⟨by decide +kernel, by decide +kernel, rfl⟩

end ClientOverlap
end Dcp
