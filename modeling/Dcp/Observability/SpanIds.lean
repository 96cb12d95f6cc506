import Dcp.Library.Digits
import Mathlib.Data.Nat.Bitwise

/-!
The ids of spans. An id is the number of the call and the clock put together with exclusive or, so
that two calls get one id when the clock has changed in just the bits in which their numbers differ.
-/

namespace Dcp.Observability
open Library

/-- The nanoseconds from the epoch to a clock reading, which are zero for an earlier reading. -/
def nanosSinceEpoch (now : Int) : UInt64 := .ofNat now.toNat

/-- Span ID generator: the id of a call, and the counter after it. -/
def generateSpanId (counter : UInt64) (now : Int) : String × UInt64 :=
  let random := nanosSinceEpoch now
  (String.ofList (paddedDigits 16 16 (counter ^^^ random).toNat), counter + 1)

def spanIds (counter : UInt64) : List Int → List String
  | [] => []
  | now :: readings =>
      let (id, counter) := generateSpanId counter now
      id :: spanIds counter readings

theorem xor_eq_of_xor_eq {a b c d : UInt64} (h : a ^^^ b = c ^^^ d) : b ^^^ d = a ^^^ c := by
  calc
    b ^^^ d = a ^^^ a ^^^ b ^^^ d := by rw [UInt64.xor_self, UInt64.zero_xor]
    _ = a ^^^ (c ^^^ d) ^^^ d := by rw [UInt64.xor_assoc a a b, h]
    _ = a ^^^ c ^^^ (d ^^^ d) := by rw [← UInt64.xor_assoc a c d, UInt64.xor_assoc]
    _ = a ^^^ c := by rw [UInt64.xor_self, UInt64.xor_zero]

theorem generateSpanId_eq_iff (counter counter' : UInt64) (now now' : Int) :
    (generateSpanId counter now).1 = (generateSpanId counter' now').1 ↔
      nanosSinceEpoch now ^^^ nanosSinceEpoch now' = counter ^^^ counter' := by
  rw [generateSpanId, generateSpanId, String.ofList_inj,
    (paddedDigits_injective (by decide) (by decide) 16).eq_iff, UInt64.toNat_inj]
  constructor
  · exact xor_eq_of_xor_eq
  · intro h
    have hswapped := xor_eq_of_xor_eq h
    rw [UInt64.xor_comm (nanosSinceEpoch now'), UInt64.xor_comm (nanosSinceEpoch now)] at hswapped
    exact hswapped.symm

theorem getElem?_spanIds (counter : UInt64) (readings : List Int) (i : Nat) :
    (spanIds counter readings)[i]? =
      readings[i]?.map fun now => (generateSpanId (counter + .ofNat i) now).1 := by
  induction readings generalizing counter i with
  | nil => rfl
  | cons now readings ih =>
      cases i with
      | zero => simp [spanIds]
      | succ i =>
          have hnext : counter + 1 + UInt64.ofNat i = counter + UInt64.ofNat (i + 1) := by
            rw [UInt64.ofNat_add, UInt64.add_assoc, UInt64.add_comm 1]
            rfl
          rw [spanIds]
          simp only [List.getElem?_cons_succ]
          rw [← hnext]
          exact ih (counter + 1) i

/-- The clock has changed between two calls in just the bits in which their numbers differ. -/
def Cancels (readings : List Int) (i j : Nat) : Prop :=
  ∃ first later, readings[i]? = some first ∧ readings[j]? = some later ∧
    nanosSinceEpoch first ^^^ nanosSinceEpoch later = .ofNat i ^^^ .ofNat j

theorem getElem?_spanIds_eq_iff (readings : List Int) {i j : Nat} (hi : i < readings.length)
    (hj : j < readings.length) :
    (spanIds 0 readings)[i]? = (spanIds 0 readings)[j]? ↔ Cancels readings i j := by
  rw [getElem?_spanIds, getElem?_spanIds, List.getElem?_eq_getElem hi,
    List.getElem?_eq_getElem hj, Option.map_some, Option.map_some, Option.some_inj,
    generateSpanId_eq_iff, UInt64.zero_add, UInt64.zero_add]
  constructor
  · intro h
    exact ⟨_, _, List.getElem?_eq_getElem hi, List.getElem?_eq_getElem hj, h⟩
  · rintro ⟨first, later, hfirst, hlater, h⟩
    rw [List.getElem?_eq_getElem hi, Option.some_inj] at hfirst
    rw [List.getElem?_eq_getElem hj, Option.some_inj] at hlater
    rw [hfirst, hlater]
    exact h

theorem length_spanIds (counter : UInt64) (readings : List Int) :
    (spanIds counter readings).length = readings.length := by
  induction readings generalizing counter with
  | nil => rfl
  | cons now readings ih => exact congrArg (· + 1) (ih (counter + 1))

theorem Cancels.lt_length {readings : List Int} {i j : Nat} (h : Cancels readings i j) :
    i < readings.length ∧ j < readings.length := by
  obtain ⟨first, later, hfirst, hlater, -⟩ := h
  exact ⟨(List.getElem?_eq_some_iff.mp hfirst).1, (List.getElem?_eq_some_iff.mp hlater).1⟩

/-- The ids of a process are distinct exactly if the clock never makes up for the counter. -/
theorem spanIds_nodup_iff (readings : List Int) :
    (spanIds 0 readings).Nodup ↔ ∀ i j, i < j → ¬ Cancels readings i j := by
  rw [List.nodup_iff_getElem?_ne_getElem?, length_spanIds]
  constructor
  · intro h i j hij hcancels
    obtain ⟨hi, hj⟩ := hcancels.lt_length
    exact h i j hij hj ((getElem?_spanIds_eq_iff readings hi hj).mpr hcancels)
  · intro h i j hij hj heq
    exact h i j hij ((getElem?_spanIds_eq_iff readings (by omega) hj).mp heq)

/-- Spans that are started one nanosecond after the other. -/
def nextTick : List Int := [1700000000000000000, 1700000000000000001]

theorem nextTick_repeated :
    nextTick.Pairwise (· ≤ ·) ∧ nextTick.length < 2 ^ 64 ∧ ¬ (spanIds 0 nextTick).Nodup := by
  refine ⟨by decide, by decide, ?_⟩
  decide +kernel

/-- A clock whose readings are multiples of a power of two does not make up for fewer calls. -/
theorem not_cancels_of_coarse {readings : List Int} {k : Nat} (hk : k ≤ 64)
    (hcoarse : ∀ now ∈ readings, 2 ^ k ∣ (nanosSinceEpoch now).toNat)
    (hcalls : readings.length ≤ 2 ^ k) {i j : Nat} (hij : i < j) : ¬ Cancels readings i j := by
  intro hcancels
  obtain ⟨hi, hj⟩ := hcancels.lt_length
  obtain ⟨first, later, hfirst, hlater, heq⟩ := hcancels
  have hpow : 2 ^ k ≤ 2 ^ 64 := Nat.pow_le_pow_right (by decide) hk
  have hnat := congrArg UInt64.toNat heq
  have hsize : j < UInt64.size := Nat.lt_of_lt_of_le hj (hcalls.trans hpow)
  rw [UInt64.toNat_xor, UInt64.toNat_xor, UInt64.toNat_ofNat_of_lt' (hij.trans hsize),
    UInt64.toNat_ofNat_of_lt' hsize] at hnat
  have hsmall : i ^^^ j < 2 ^ k := Nat.xor_lt_two_pow (by omega) (by omega)
  have hzero : (i ^^^ j) % 2 ^ k = 0 := by
    rw [← hnat, Nat.xor_mod_two_pow,
      Nat.mod_eq_zero_of_dvd (hcoarse first (List.mem_of_getElem? hfirst)),
      Nat.mod_eq_zero_of_dvd (hcoarse later (List.mem_of_getElem? hlater)), Nat.xor_self]
  rw [Nat.mod_eq_of_lt hsmall, Nat.xor_eq_zero_iff] at hzero
  omega

end Dcp.Observability
