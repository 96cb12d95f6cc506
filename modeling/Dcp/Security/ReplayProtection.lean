import Dcp.Library.Run
import Dcp.Security.SignedArguments

/-!
Replay protection over whole runs. A run is a list of operations on one nonce store, each
with the two clock readings it may make; the readings never go back. What a run keeps is
that an accepted nonce is still stored with its timestamp, or its timestamp is dead: every
later reading of the clock finds it expired.
-/

namespace Dcp
open Library

inductive ReplayOp
  | executeSignedAuthorized (router : BinaryTrieRouter) (capabilities : CapabilityManifest)
      (invocation : SignedInvocation) (publicKey : PublicKey) (args : SharedArgs)
  | checkNonce (nonce timestamp : UInt64)
  | cleanupExpired

/-- An operation with its clock readings: `now` is the one of the expiry check, `now'` the
one of a clean-up. -/
structure ReplayTick where
  op : ReplayOp
  now : UInt64
  now' : UInt64

structure ReplayState where
  store : NonceStore
  calls : List Call

namespace ReplayState

def step (crypto : Crypto) (state : ReplayState) (tick : ReplayTick) : ReplayState :=
  match tick.op with
  | .executeSignedAuthorized router capabilities invocation publicKey args =>
      let (_, store, calls) := BinaryTrieRouter.executeSignedAuthorized crypto router capabilities
        invocation publicKey args tick.now tick.now' state.store state.calls
      ⟨store, calls⟩
  | .checkNonce nonce timestamp =>
      { state with store := (state.store.checkNonce tick.now tick.now' nonce timestamp).2 }
  | .cleanupExpired => { state with store := state.store.cleanupExpired tick.now' }

def run (crypto : Crypto) (state : ReplayState) (ticks : List ReplayTick) : ReplayState :=
  ticks.foldl (step crypto) state

end ReplayState

namespace ReplayTick

/-- The readings of a run, which starts after the reading `last`, never go back. -/
def ClockFrom : UInt64 → List ReplayTick → Prop
  | _, [] => True
  | last, tick :: rest => last ≤ tick.now ∧ tick.now ≤ tick.now' ∧ ClockFrom tick.now' rest

/-- The operation is an execution of a signed invocation with this nonce and timestamp. -/
def isInvocation (tick : ReplayTick) (nonce timestamp : UInt64) : Bool :=
  match tick.op with
  | .executeSignedAuthorized _ _ invocation _ _ =>
      decide (invocation.nonce = nonce ∧ invocation.timestamp = timestamp)
  | _ => false

/-- The step runs a handler for the signed invocation. -/
def executes (crypto : Crypto) (state : ReplayState) (tick : ReplayTick)
    (nonce timestamp : UInt64) : Bool :=
  tick.isInvocation nonce timestamp && decide ((state.step crypto tick).calls ≠ state.calls)

/-- The checks that come before the nonce store is consulted reject the call. -/
def FailsSignedChecks (crypto : Crypto) (tick : ReplayTick) : Prop :=
  match tick.op with
  | .executeSignedAuthorized _ _ invocation publicKey args =>
      Verifier.verifyInvocation crypto invocation publicKey ≠ .ok () ∨
        Verifier.verifyArgsHash crypto invocation args.data = false ∨
        65536 ≤ invocation.toolId.toNat
  | _ => False

/-- The step has the nonce and timestamp accepted by the nonce store. -/
def AcceptsNonce (crypto : Crypto) (state : ReplayState) (tick : ReplayTick)
    (nonce timestamp : UInt64) : Prop :=
  (state.store.checkNonce tick.now tick.now' nonce timestamp).1 = .ok () ∧
    match tick.op with
    | .executeSignedAuthorized _ _ invocation publicKey args =>
        invocation.nonce = nonce ∧ invocation.timestamp = timestamp ∧
          ∃ toolId, BinaryTrieRouter.checkSigned crypto invocation publicKey args = .ok toolId
    | .checkNonce n t => n = nonce ∧ t = timestamp
    | .cleanupExpired => False

end ReplayTick

/-- How often a run executes the signed invocation. -/
def executions (crypto : Crypto) (nonce timestamp : UInt64) :
    ReplayState → List ReplayTick → Nat
  | _, [] => 0
  | state, tick :: rest =>
      (if tick.executes crypto state nonce timestamp then 1 else 0) +
        executions crypto nonce timestamp (state.step crypto tick) rest

namespace NonceStore

/-- The nonce was accepted with this timestamp and cannot be accepted with it again. -/
def Remembers (store : NonceStore) (now nonce timestamp : UInt64) : Prop :=
  store.nonces.lookup nonce = some timestamp ∨ store.Dead now timestamp

theorem Remembers.mono {store : NonceStore} {now later nonce timestamp : UInt64}
    (h : store.Remembers now nonce timestamp) (hle : now ≤ later) :
    store.Remembers later nonce timestamp :=
  h.imp id (Dead.mono hle)

theorem Remembers.cleanupExpired {store : NonceStore} {now nonce timestamp : UInt64}
    (h : store.Remembers now nonce timestamp) :
    (store.cleanupExpired now).Remembers now nonce timestamp := by
  rcases h with hstored | hdead
  · exact lookup_cleanupExpired hstored
  · exact .inr hdead

theorem Remembers.checkNonce_ne_ok {store : NonceStore} {now now' nonce timestamp : UInt64}
    (h : store.Remembers now nonce timestamp) :
    (store.checkNonce now now' nonce timestamp).1 ≠ .ok () := by
  intro hok
  rcases store.checkNonce_cases now now' nonce timestamp with
    ⟨e, hrun⟩ | ⟨e, hrun⟩ | ⟨base, _, _, hfresh, hnone, _⟩
  · rw [hrun] at hok
    contradiction
  · rw [hrun] at hok
    contradiction
  · rcases h with hstored | hdead
    · rw [hnone] at hstored
      contradiction
    · rw [isExpired_of_dead hdead] at hfresh
      contradiction

theorem Remembers.checkNonce {store : NonceStore} {now now' nonce timestamp : UInt64}
    (h : store.Remembers now nonce timestamp) (hle : now ≤ now') (other time : UInt64) :
    (store.checkNonce now now' other time).2.Remembers now' nonce timestamp := by
  have hlater := h.mono hle
  rcases store.checkNonce_cases now now' other time with
    ⟨e, hrun⟩ | ⟨e, hrun⟩ | ⟨base, hbase, _, _, hnone, hrun⟩
  · rw [hrun]
    exact hlater
  · rw [hrun]
    exact hlater.cleanupExpired
  · rw [hrun]
    have hkept : base.Remembers now' nonce timestamp := by
      obtain rfl | rfl := hbase
      · exact hlater
      · exact hlater.cleanupExpired
    by_cases hne : nonce = other
    · -- A nonce that is being stored now was not in the store, so it can only be dead.
      subst hne
      rcases hlater with hstored | hdead
      · rw [hnone] at hstored
        contradiction
      · refine .inr ?_
        obtain rfl | rfl := hbase
        · exact hdead
        · exact hdead
    · refine hkept.imp (fun hstored => ?_) id
      rwa [Table.lookup_insert_eq, if_neg hne]

theorem remembers_of_checkNonce_ok {store : NonceStore} {now now' nonce timestamp : UInt64}
    (h : (store.checkNonce now now' nonce timestamp).1 = .ok ()) :
    (store.checkNonce now now' nonce timestamp).2.Remembers now' nonce timestamp := by
  rcases store.checkNonce_cases now now' nonce timestamp with
    ⟨e, hrun⟩ | ⟨e, hrun⟩ | ⟨base, _, _, _, _, hrun⟩
  · rw [hrun] at h
    contradiction
  · rw [hrun] at h
    contradiction
  · rw [hrun]
    exact .inl (by simp)

/-- The store has the capacity `m` and is within it. -/
def Bounded (store : NonceStore) (m : Nat) : Prop :=
  store.maxNonces = m ∧ store.nonces.size ≤ m

theorem Bounded.cleanupExpired {store : NonceStore} {m : Nat} (h : store.Bounded m)
    (now : UInt64) : (store.cleanupExpired now).Bounded m :=
  ⟨h.1, Nat.le_trans (Table.size_retain_le _ _) h.2⟩

theorem Bounded.checkNonce {store : NonceStore} {m : Nat} (h : store.Bounded m)
    (now now' nonce timestamp : UInt64) :
    (store.checkNonce now now' nonce timestamp).2.Bounded m := by
  rcases store.checkNonce_cases now now' nonce timestamp with
    ⟨e, hrun⟩ | ⟨e, hrun⟩ | ⟨base, hbase, hroom, _, hnone, hrun⟩
  · rw [hrun]
    exact h
  · rw [hrun]
    exact h.cleanupExpired now'
  · rw [hrun]
    have hmax : base.maxNonces = m := by
      obtain rfl | rfl := hbase
      · exact h.1
      · exact h.1
    have hfresh : base.nonces.lookup nonce = none := by
      obtain rfl | rfl := hbase
      · exact hnone
      · rw [Option.eq_none_iff_forall_ne_some]
        intro ts hts
        have hstored := (Table.lookup_retain_eq_some_iff.mp hts).1
        rw [hnone] at hstored
        contradiction
    refine ⟨hmax, ?_⟩
    rw [Table.size_insert_of_lookup_none timestamp hfresh]
    rw [h.1] at hroom
    exact hroom

end NonceStore

namespace ReplayState

/-- The store after a step: untouched, cleaned, or after one nonce check. -/
theorem store_step (crypto : Crypto) (state : ReplayState) (tick : ReplayTick) :
    (state.step crypto tick).store = state.store ∨
      (state.step crypto tick).store = state.store.cleanupExpired tick.now' ∨
      ∃ nonce timestamp, (state.step crypto tick).store =
        (state.store.checkNonce tick.now tick.now' nonce timestamp).2 := by
  obtain ⟨op, now, now'⟩ := tick
  cases op with
  | executeSignedAuthorized router capabilities invocation publicKey args =>
      simp only [step]
      rcases BinaryTrieRouter.executeSignedAuthorized_cases crypto router capabilities invocation
          publicKey args now now' state.store state.calls with
        ⟨e, _, hrun⟩ | ⟨toolId, e, store', _, hnonce, hrun⟩ | ⟨toolId, store', _, hnonce, hrun⟩
      · exact .inl (by rw [hrun])
      · exact .inr (.inr ⟨invocation.nonce, invocation.timestamp, by rw [hrun, hnonce]⟩)
      · exact .inr (.inr ⟨invocation.nonce, invocation.timestamp, by rw [hrun, hnonce]⟩)
  | checkNonce nonce timestamp => exact .inr (.inr ⟨nonce, timestamp, rfl⟩)
  | cleanupExpired => exact .inr (.inl rfl)

theorem remembers_step (crypto : Crypto) {state : ReplayState} {tick : ReplayTick}
    {nonce timestamp : UInt64} (h : state.store.Remembers tick.now nonce timestamp)
    (hle : tick.now ≤ tick.now') :
    (state.step crypto tick).store.Remembers tick.now' nonce timestamp := by
  rcases state.store_step crypto tick with hstore | hstore | ⟨other, time, hstore⟩
  · rw [hstore]
    exact h.mono hle
  · rw [hstore]
    exact (h.mono hle).cleanupExpired
  · rw [hstore]
    exact h.checkNonce hle other time

theorem bounded_step (crypto : Crypto) {m : Nat} (state : ReplayState) (tick : ReplayTick)
    (h : state.store.Bounded m) : (state.step crypto tick).store.Bounded m := by
  rcases state.store_step crypto tick with hstore | hstore | ⟨nonce, timestamp, hstore⟩
  · rw [hstore]
    exact h
  · rw [hstore]
    exact h.cleanupExpired tick.now'
  · rw [hstore]
    exact h.checkNonce tick.now tick.now' nonce timestamp

theorem bounded_run (crypto : Crypto) {m : Nat} {state : ReplayState}
    (h : state.store.Bounded m) (ticks : List ReplayTick) :
    (state.run crypto ticks).store.Bounded m :=
  invariant_foldl (bounded_step crypto) h ticks

/-- A handler runs for an invocation only when its nonce is accepted in the same step. -/
theorem acceptsNonce_of_executes {crypto : Crypto} {state : ReplayState} {tick : ReplayTick}
    {nonce timestamp : UInt64} (h : tick.executes crypto state nonce timestamp = true) :
    tick.AcceptsNonce crypto state nonce timestamp := by
  obtain ⟨op, now, now'⟩ := tick
  cases op with
  | executeSignedAuthorized router capabilities invocation publicKey args =>
      rw [ReplayTick.executes, Bool.and_eq_true] at h
      obtain ⟨rfl, rfl⟩ : invocation.nonce = nonce ∧ invocation.timestamp = timestamp :=
        of_decide_eq_true h.1
      have hran := of_decide_eq_true h.2
      simp only [step] at hran
      rcases BinaryTrieRouter.executeSignedAuthorized_cases crypto router capabilities invocation
          publicKey args now now' state.store state.calls with
        ⟨e, _, hrun⟩ | ⟨toolId, e, store', _, _, hrun⟩ | ⟨toolId, store', hchecks, hnonce, _⟩
      · exact absurd (by rw [hrun]) hran
      · exact absurd (by rw [hrun]) hran
      · exact ⟨by rw [hnonce], rfl, rfl, toolId, hchecks⟩
  | checkNonce n t => simp [ReplayTick.executes, ReplayTick.isInvocation] at h
  | cleanupExpired => simp [ReplayTick.executes, ReplayTick.isInvocation] at h

theorem remembers_of_acceptsNonce {crypto : Crypto} {state : ReplayState} {tick : ReplayTick}
    {nonce timestamp : UInt64} (h : tick.AcceptsNonce crypto state nonce timestamp) :
    (state.step crypto tick).store.Remembers tick.now' nonce timestamp := by
  obtain ⟨hok, hop⟩ := h
  have hkept := NonceStore.remembers_of_checkNonce_ok hok
  obtain ⟨op, now, now'⟩ := tick
  cases op with
  | executeSignedAuthorized router capabilities invocation publicKey args =>
      obtain ⟨rfl, rfl, toolId, hchecks⟩ := hop
      simp only [step]
      rcases BinaryTrieRouter.executeSignedAuthorized_cases crypto router capabilities invocation
          publicKey args now now' state.store state.calls with
        ⟨e, hfailed, _⟩ | ⟨_, e, store', _, hnonce, hrun⟩ | ⟨_, store', _, hnonce, hrun⟩
      · rw [hchecks] at hfailed
        contradiction
      · rw [hrun]
        rwa [hnonce] at hkept
      · rw [hrun]
        rwa [hnonce] at hkept
  | checkNonce n t =>
      obtain ⟨rfl, rfl⟩ := hop
      exact hkept
  | cleanupExpired => exact hop.elim

theorem store_step_of_failsSignedChecks {crypto : Crypto} {state : ReplayState}
    {tick : ReplayTick} (h : tick.FailsSignedChecks crypto) :
    (state.step crypto tick).store = state.store := by
  obtain ⟨op, now, now'⟩ := tick
  cases op with
  | executeSignedAuthorized router capabilities invocation publicKey args =>
      have hfailed : ∀ toolId,
          BinaryTrieRouter.checkSigned crypto invocation publicKey args ≠ .ok toolId := by
        intro toolId hchecks
        obtain ⟨hsig, hhash, hid, _⟩ :=
          (BinaryTrieRouter.checkSigned_ok_iff crypto invocation publicKey args toolId).mp hchecks
        rcases h with hnosig | hnohash | hwide
        · exact hnosig hsig
        · simp [Verifier.verifyArgsHash, hhash] at hnohash
        · omega
      simp only [step]
      rcases BinaryTrieRouter.executeSignedAuthorized_cases crypto router capabilities invocation
          publicKey args now now' state.store state.calls with
        ⟨e, _, hrun⟩ | ⟨toolId, _, _, hchecks, _⟩ | ⟨toolId, _, hchecks, _⟩
      · rw [hrun]
      · exact absurd hchecks (hfailed toolId)
      · exact absurd hchecks (hfailed toolId)
  | checkNonce n t => exact h.elim
  | cleanupExpired => exact h.elim

/-- A remembered invocation is not executed again. -/
theorem executions_eq_zero (crypto : Crypto) {state : ReplayState} {last nonce timestamp : UInt64}
    {ticks : List ReplayTick} (hclock : ReplayTick.ClockFrom last ticks)
    (h : state.store.Remembers last nonce timestamp) :
    executions crypto nonce timestamp state ticks = 0 := by
  induction ticks generalizing state last with
  | nil => rfl
  | cons tick rest ih =>
      obtain ⟨hnow, hnow', hrest⟩ := hclock
      have hhere := h.mono hnow
      have hnot : tick.executes crypto state nonce timestamp = false := by
        rw [Bool.eq_false_iff]
        intro hexec
        exact hhere.checkNonce_ne_ok (acceptsNonce_of_executes hexec).1
      simp only [executions, hnot, Bool.false_eq_true, if_false, Nat.zero_add]
      exact ih hrest (remembers_step crypto hhere hnow')

theorem executions_le_one (crypto : Crypto) {state : ReplayState} {last nonce timestamp : UInt64}
    {ticks : List ReplayTick} (hclock : ReplayTick.ClockFrom last ticks) :
    executions crypto nonce timestamp state ticks ≤ 1 := by
  induction ticks generalizing state last with
  | nil => exact Nat.zero_le 1
  | cons tick rest ih =>
      obtain ⟨_, _, hrest⟩ := hclock
      cases hexec : tick.executes crypto state nonce timestamp with
      | true =>
          have hkept := remembers_of_acceptsNonce (acceptsNonce_of_executes hexec)
          simp only [executions, hexec, if_true, executions_eq_zero crypto hrest hkept]
          exact Nat.le_refl 1
      | false =>
          simp only [executions, hexec, Bool.false_eq_true, if_false, Nat.zero_add]
          exact ih hrest

end ReplayState

namespace ReplayTick

theorem ClockFrom.append_right {last : UInt64} {before : List ReplayTick} {tick : ReplayTick}
    {after : List ReplayTick} (h : ClockFrom last (before ++ tick :: after)) :
    ClockFrom tick.now' after := by
  induction before generalizing last with
  | nil => exact h.2.2
  | cons _ _ ih => exact ih h.2.2

end ReplayTick

/-- What replay protection promises of the run `ticks` from `start`. -/
structure ReplayProtected (crypto : Crypto) (start : ReplayState) (ticks : List ReplayTick) :
    Prop where
  once : ∀ nonce timestamp, executions crypto nonce timestamp start ticks ≤ 1
  unchanged : ∀ before tick after, ticks = before ++ tick :: after →
    tick.FailsSignedChecks crypto →
    ((start.run crypto before).step crypto tick).store = (start.run crypto before).store
  bounded : ∀ before after, ticks = before ++ after →
    (start.run crypto before).store.nonces.size ≤ start.store.maxNonces
  denied : ∀ before tick after, ticks = before ++ tick :: after → ∀ nonce timestamp,
    tick.AcceptsNonce crypto (start.run crypto before) nonce timestamp →
    executions crypto nonce timestamp ((start.run crypto before).step crypto tick) after = 0

/-- Every run of a store that starts empty is protected against replay. -/
theorem ReplayState.replay_protected (crypto : Crypto) (maxNonces : Nat)
    (expirationSecs : UInt64) (calls : List Call) (ticks : List ReplayTick)
    (hclock : ReplayTick.ClockFrom 0 ticks) :
    ReplayProtected crypto ⟨.withConfig maxNonces expirationSecs, calls⟩ ticks where
  once nonce timestamp := executions_le_one crypto hclock
  unchanged _ _ _ _ hfails := store_step_of_failsSignedChecks hfails
  bounded before _ _ :=
    (bounded_run crypto ⟨rfl, Nat.zero_le _⟩ before).2
  denied before tick after hticks nonce timestamp haccepts := by
    subst hticks
    exact executions_eq_zero crypto hclock.append_right (remembers_of_acceptsNonce haccepts)

/-- A recorded invocation presented twice, with an eviction of its nonce in between. -/
def replayedTwice : List ReplayTick :=
  let invoke : ReplayOp := .executeSignedAuthorized BinaryTrieRouter.flagsRouter
    BinaryTrieRouter.flagsManifest recordedInvocation recordedKey ⟨[1, 1], 17⟩
  [⟨invoke, 1000, 1000⟩, ⟨.checkNonce 8 1400, 1400, 1400⟩, ⟨.cleanupExpired, 1400, 1400⟩,
    ⟨invoke, 1400, 1401⟩]

theorem ReplayState.replay_protected_replayedTwice :
    executions .recorded 7 1000 ⟨.withConfig 1 300, []⟩ replayedTwice = 1 ∧
      ReplayProtected .recorded ⟨.withConfig 1 300, []⟩ replayedTwice :=
  ⟨by decide, replay_protected .recorded 1 300 [] replayedTwice (by
    simp only [replayedTwice, ReplayTick.ClockFrom]
    decide)⟩

end Dcp
