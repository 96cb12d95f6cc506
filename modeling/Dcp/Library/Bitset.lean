import Mathlib.Data.List.Basic
import Mathlib.Data.Nat.Bitwise
import Mathlib.Tactic

/-!
Sets of small natural numbers stored as an array of 64-bit words. The word of an
element is its quotient by 64 and the bit its remainder; numbers past the last word
are never members, and inserting or deleting one changes nothing.
-/

namespace Library

/-- A set of numbers below `64 * n`, one bit each. -/
abbrev Bitset (n : Nat) := Vector UInt64 n

/-- The word with bit `b` alone set; shifting is modulo 64. -/
def bit (b : Nat) : UInt64 := 1 <<< UInt64.ofNat b

theorem toNat_bit {b : Nat} (hb : b < 64) : (bit b).toNat = 2 ^ b := by
  have hlt : 2 ^ b < 18446744073709551616 := by
    simpa using Nat.pow_lt_pow_right (show 1 < 2 by norm_num) hb
  simpa [bit, UInt64.toNat_shiftLeft, Nat.mod_eq_of_lt hb, Nat.one_shiftLeft] using hlt

theorem and_bit_ne_zero_iff (w : UInt64) {b : Nat} (hb : b < 64) :
    w &&& bit b ≠ 0 ↔ w.toNat.testBit b = true := by
  have hand : (w &&& bit b).toNat = (w.toNat.testBit b).toNat * 2 ^ b := by
    rw [UInt64.toNat_and, toNat_bit hb, Nat.and_two_pow]
  rw [Ne, ← UInt64.toNat_inj, hand]
  cases w.toNat.testBit b <;> simp

/-- The number of set bits of a word. -/
def countOnes (w : UInt64) : Nat := (List.range 64).countP fun b => w &&& bit b != 0

namespace Bitset
variable {n : Nat}

def empty : Bitset n := Vector.replicate n 0

def has (s : Bitset n) (id : Nat) : Bool :=
  if h : id / 64 < n then s[id / 64] &&& bit (id % 64) != 0 else false

def set (s : Bitset n) (id : Nat) : Bitset n :=
  if h : id / 64 < n then Vector.set s (id / 64) (s[id / 64] ||| bit (id % 64)) else s

def clear (s : Bitset n) (id : Nat) : Bitset n :=
  if h : id / 64 < n then Vector.set s (id / 64) (s[id / 64] &&& ~~~ bit (id % 64)) else s

def inter (s t : Bitset n) : Bitset n := Vector.zipWith (· &&& ·) s t

def count (s : Bitset n) : Nat := (s.toList.map countOnes).sum

/-- The bit of a member, read from the natural number its word stands for. -/
theorem has_eq_testBit (s : Bitset n) (id : Nat) :
    s.has id = if h : id / 64 < n then s[id / 64].toNat.testBit (id % 64) else false := by
  unfold has
  split
  · rename_i h
    rw [Bool.eq_iff_iff, bne_iff_ne, and_bit_ne_zero_iff _ (Nat.mod_lt _ (by norm_num))]
  · rfl

@[simp] theorem has_empty (id : Nat) : (empty : Bitset n).has id = false := by
  rw [has_eq_testBit]
  simp [empty]

/-- Two ids with the same word and the same bit are equal. -/
private theorem eq_of_div_mod {a b : Nat} (hd : a / 64 = b / 64) (hm : a % 64 = b % 64) :
    a = b := by
  omega

theorem has_set (s : Bitset n) (id a : Nat) :
    (s.set id).has a = (s.has a || (decide (a = id) && decide (id / 64 < n))) := by
  unfold set
  split
  · rename_i h
    simp only [has_eq_testBit, h, decide_true, Bool.and_true]
    by_cases ha : a / 64 < n
    · simp only [ha, dite_true]
      by_cases hw : id / 64 = a / 64
      · simp only [Vector.getElem_set, hw, ite_true, UInt64.toNat_or, Nat.testBit_or,
          toNat_bit (Nat.mod_lt id (show 0 < 64 by norm_num)), Nat.testBit_two_pow]
        congr 1
        rw [decide_eq_decide]
        constructor
        · intro hm
          exact eq_of_div_mod hw.symm hm.symm
        · rintro rfl
          rfl
      · have hne : a ≠ id := fun e => hw (e ▸ rfl)
        simp [hw, hne]
    · have hne : a ≠ id := fun e => ha (e ▸ h)
      simp [ha, hne]
  · rename_i h
    simp [h]

theorem or_bit_testBit (w : UInt64) {b : Nat} (hb : b < 64) (k : Nat) :
    (w ||| bit b).toNat.testBit k = (w.toNat.testBit k || decide (k = b)) := by
  rw [UInt64.toNat_or, Nat.testBit_or, toNat_bit hb, Nat.testBit_two_pow, decide_eq_decide.mpr]
  exact eq_comm

theorem and_not_bit_testBit (w : UInt64) {b k : Nat} (hb : b < 64) (hk : k < 64) :
    (w &&& ~~~ bit b).toNat.testBit k = (w.toNat.testBit k && !decide (k = b)) := by
  have hbit : (bit b).toBitVec.getLsbD k = decide (k = b) := by
    change (bit b).toNat.testBit k = _
    rw [toNat_bit hb, Nat.testBit_two_pow, decide_eq_decide]
    exact eq_comm
  change ((w &&& ~~~ bit b).toBitVec).getLsbD k = _
  rw [UInt64.toBitVec_and, UInt64.toBitVec_not, BitVec.getLsbD_and, BitVec.getLsbD_not, hbit,
    decide_eq_true hk, Bool.true_and]
  rfl

theorem has_clear (s : Bitset n) (id a : Nat) :
    (s.clear id).has a = (s.has a && !decide (a = id)) := by
  unfold clear
  split
  · rename_i h
    simp only [has_eq_testBit]
    by_cases ha : a / 64 < n
    · simp only [ha, dite_true]
      by_cases hw : id / 64 = a / 64
      · have hid : a % 64 = id % 64 ↔ a = id :=
          ⟨fun hm => eq_of_div_mod hw.symm hm, fun heq => heq ▸ rfl⟩
        simp only [Vector.getElem_set, hw, ite_true]
        rw [and_not_bit_testBit _ (Nat.mod_lt _ (by norm_num)) (Nat.mod_lt _ (by norm_num)),
          decide_eq_decide.mpr hid]
      · have hne : a ≠ id := fun heq => hw (heq ▸ rfl)
        simp [hw, hne]
    · simp [ha]
  · rename_i h
    by_cases ha : a = id
    · subst ha
      rw [has_eq_testBit, dif_neg h]
      rfl
    · simp [ha]

theorem has_foldl_set (ids : List Nat) (s : Bitset n) (a : Nat) :
    (ids.foldl set s).has a = true ↔ s.has a = true ∨ (a ∈ ids ∧ a / 64 < n) := by
  induction ids generalizing s with
  | nil => simp
  | cons id rest ih =>
      rw [List.foldl_cons, ih, has_set, Bool.or_eq_true, Bool.and_eq_true, decide_eq_true_eq,
        decide_eq_true_eq, List.mem_cons]
      constructor
      · rintro ((h | ⟨rfl, hlt⟩) | ⟨hmem, hlt⟩)
        · exact .inl h
        · exact .inr ⟨.inl rfl, hlt⟩
        · exact .inr ⟨.inr hmem, hlt⟩
      · rintro (h | ⟨rfl | hmem, hlt⟩)
        · exact .inl (.inl h)
        · exact .inl (.inr ⟨rfl, hlt⟩)
        · exact .inr ⟨hmem, hlt⟩

theorem has_inter (s t : Bitset n) (id : Nat) :
    (s.inter t).has id = (s.has id && t.has id) := by
  simp only [has_eq_testBit, inter]
  split
  · simp
  · rfl

end Bitset
end Library
