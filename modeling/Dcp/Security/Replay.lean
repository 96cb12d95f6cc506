import Dcp.Error
import Dcp.Library.Table

/-!
The nonce store of the signed path. The clock is read once by the expiry check and once
more by a clean-up, so every operation takes the readings it makes as arguments.
-/

namespace Dcp
open Library

structure NonceStore where
  nonces : Table UInt64 UInt64
  maxNonces : Nat
  expirationSecs : UInt64

namespace NonceStore

def withConfig (maxNonces : Nat) (expirationSecs : UInt64) : NonceStore :=
  ⟨∅, maxNonces, expirationSecs⟩

def isExpired (store : NonceStore) (now timestamp : UInt64) : Bool :=
  if timestamp > now then
    -- Future timestamp: some clock skew is allowed; the addition wraps.
    decide (timestamp > now + 60)
  else decide (now - timestamp > store.expirationSecs)

def saturatingSub (a b : UInt64) : UInt64 := if a ≤ b then 0 else a - b

def cleanupExpired (store : NonceStore) (now : UInt64) : NonceStore :=
  { store with nonces :=
      store.nonces.retain fun _ ts => decide (saturatingSub now ts ≤ store.expirationSecs) }

/-- Check and record a nonce. `now` is the reading of the expiry check, `now'` the one
of the clean-up, which happens only at capacity. -/
def checkNonce (store : NonceStore) (now now' : UInt64) (nonce timestamp : UInt64) :
    Except SecurityError Unit × NonceStore :=
  if store.isExpired now timestamp then (.error .expiredTimestamp, store)
  else if (store.nonces.lookup nonce).isSome then (.error .replayAttack, store)
  else
    let cleaned := if store.nonces.size ≥ store.maxNonces then store.cleanupExpired now' else store
    if cleaned.nonces.size ≥ store.maxNonces then (.error .capacityExceeded, cleaned)
    else (.ok (), { cleaned with nonces := AList.insert nonce timestamp cleaned.nonces })

/-- A recorded timestamp that every later reading of the clock finds expired. -/
def Dead (store : NonceStore) (now timestamp : UInt64) : Prop :=
  timestamp ≤ now ∧ now - timestamp > store.expirationSecs

theorem Dead.mono {store : NonceStore} {now later timestamp : UInt64} (hle : now ≤ later)
    (h : store.Dead now timestamp) : store.Dead later timestamp := by
  obtain ⟨hts, hage⟩ := h
  have hts' : timestamp ≤ later := UInt64.le_trans hts hle
  refine ⟨hts', ?_⟩
  rw [gt_iff_lt, UInt64.lt_iff_toNat_lt, UInt64.toNat_sub_of_le _ _ hts] at hage
  rw [gt_iff_lt, UInt64.lt_iff_toNat_lt, UInt64.toNat_sub_of_le _ _ hts']
  rw [UInt64.le_iff_toNat_le] at hle hts
  omega

theorem isExpired_of_dead {store : NonceStore} {now timestamp : UInt64}
    (h : store.Dead now timestamp) : store.isExpired now timestamp = true := by
  obtain ⟨hts, hage⟩ := h
  rw [isExpired, if_neg (UInt64.not_lt.mpr hts)]
  exact decide_eq_true hage

/-- A clean-up removes a nonce only when its timestamp is dead at the reading it makes. -/
theorem dead_of_not_retained {store : NonceStore} {now timestamp : UInt64}
    (h : ¬ saturatingSub now timestamp ≤ store.expirationSecs) : store.Dead now timestamp := by
  unfold saturatingSub at h
  split at h
  · exact absurd (by simp [UInt64.le_iff_toNat_le]) h
  · rename_i hle
    exact ⟨UInt64.le_of_lt (UInt64.not_le.mp hle), UInt64.not_le.mp h⟩

theorem lookup_cleanupExpired {store : NonceStore} {now nonce timestamp : UInt64}
    (h : store.nonces.lookup nonce = some timestamp) :
    (store.cleanupExpired now).nonces.lookup nonce = some timestamp ∨
      store.Dead now timestamp := by
  by_cases hkeep : saturatingSub now timestamp ≤ store.expirationSecs
  · exact .inl (Table.lookup_retain_eq_some_iff.mpr ⟨h, by simpa using hkeep⟩)
  · exact .inr (dead_of_not_retained hkeep)

/-- What a nonce check can do: refuse and leave every entry or drop dead ones, or
accept a nonce that was neither stored nor expired. -/
theorem checkNonce_cases (store : NonceStore) (now now' nonce timestamp : UInt64) :
    (∃ e, store.checkNonce now now' nonce timestamp = (.error e, store)) ∨
    (∃ e, store.checkNonce now now' nonce timestamp = (.error e, store.cleanupExpired now')) ∨
    (∃ base, (base = store ∨ base = store.cleanupExpired now') ∧
      base.nonces.size < store.maxNonces ∧ store.isExpired now timestamp = false ∧
      store.nonces.lookup nonce = none ∧
      store.checkNonce now now' nonce timestamp =
        (.ok (), { base with nonces := AList.insert nonce timestamp base.nonces })) := by
  unfold checkNonce
  by_cases hexp : store.isExpired now timestamp
  · exact .inl ⟨_, by rw [if_pos hexp]⟩
  · rw [if_neg hexp]
    by_cases hseen : (store.nonces.lookup nonce).isSome
    · exact .inl ⟨_, by rw [if_pos hseen]⟩
    · rw [if_neg hseen]
      have hnone : store.nonces.lookup nonce = none := by simpa using hseen
      have hfresh : store.isExpired now timestamp = false := by simpa using hexp
      by_cases hfull : store.nonces.size ≥ store.maxNonces
      · simp only [hfull, ite_true]
        by_cases hstill : (store.cleanupExpired now').nonces.size ≥ store.maxNonces
        · exact .inr (.inl ⟨_, by rw [if_pos hstill]⟩)
        · exact .inr (.inr ⟨_, .inr rfl, Nat.lt_of_not_le hstill, hfresh, hnone,
            by rw [if_neg hstill]⟩)
      · simp only [hfull, ite_false]
        exact .inr (.inr ⟨_, .inl rfl, Nat.lt_of_not_le hfull, hfresh, hnone, rfl⟩)

end NonceStore
end Dcp
