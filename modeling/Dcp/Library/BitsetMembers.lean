import Dcp.Library.Bitset
import Mathlib.Data.Finset.Sort

/-!
The finite sets that bitsets stand for. Insertion, deletion and intersection are those of sets of
small numbers, and walking through the words lists the members in their order.
-/

namespace Library

theorem and_bit_bne_zero (w : UInt64) {b : Nat} (hb : b < 64) :
    (w &&& bit b != 0) = w.toNat.testBit b := by
  rw [Bool.eq_iff_iff, bne_iff_ne, and_bit_ne_zero_iff w hb]

namespace Bitset
variable {n : Nat}

/-- The numbers below `64 * n` whose bit is set. -/
def members (s : Bitset n) : Finset Nat := (Finset.range (64 * n)).filter fun id => s.has id = true

theorem has_of_ge (s : Bitset n) {id : Nat} (h : 64 * n ≤ id) : s.has id = false := by
  rw [has_eq_testBit, dif_neg]
  omega

@[simp] theorem mem_members {s : Bitset n} {id : Nat} : id ∈ s.members ↔ s.has id = true := by
  rw [members, Finset.mem_filter, Finset.mem_range, and_iff_right_iff_imp]
  intro h
  by_contra hge
  rw [has_of_ge s (Nat.le_of_not_lt hge)] at h
  cases h

theorem lt_of_mem_members {s : Bitset n} {id : Nat} (h : id ∈ s.members) : id < 64 * n :=
  Finset.mem_range.mp (Finset.mem_of_mem_filter id h)

theorem members_empty : (empty : Bitset n).members = ∅ := by
  ext id
  simp

/-- A number past the last word is not inserted. -/
theorem members_set (s : Bitset n) (id : Nat) :
    (s.set id).members = if id < 64 * n then insert id s.members else s.members := by
  have hword : id / 64 < n ↔ id < 64 * n := by omega
  ext a
  rw [mem_members, has_set]
  split
  · next hid => simp [hword.mpr hid, or_comm]
  · next hid => simp [mt hword.mp hid]

theorem members_clear (s : Bitset n) (id : Nat) : (s.clear id).members = s.members.erase id := by
  ext a
  rw [mem_members, has_clear]
  simp [and_comm]

theorem members_inter (s t : Bitset n) : (s.inter t).members = s.members ∩ t.members := by
  ext a
  simp [has_inter]

/-- The bits of a word that are set, counted from a number on. -/
def wordIds (word : UInt64) (start : Nat) : List Nat :=
  ((List.range 64).filter fun b => word.toNat.testBit b).map (start + ·)

/-- The members, word after word. -/
def ids (s : Bitset n) : List Nat :=
  s.toList.zipIdx.flatMap fun (word, wordIdx) => wordIds word (64 * wordIdx)

theorem length_wordIds (word : UInt64) (start : Nat) :
    (wordIds word start).length = countOnes word := by
  rw [wordIds, List.length_map, ← List.countP_eq_length_filter, countOnes]
  refine List.countP_congr fun b hb => ?_
  rw [and_bit_bne_zero word (List.mem_range.mp hb)]

/-- The numbers of a word are those of its place whose bit is set. -/
theorem wordIds_eq_filter (s : Bitset n) {i : Nat} (hi : i < n) :
    wordIds s[i] (64 * i) = ((List.range 64).map (64 * i + ·)).filter fun id => s.has id := by
  rw [wordIds, List.filter_map]
  refine congrArg (List.map (64 * i + ·)) (List.filter_congr fun b hb => ?_)
  have hb := List.mem_range.mp hb
  have hword : (64 * i + b) / 64 = i := by omega
  have hbit : (64 * i + b) % 64 = b := by omega
  rw [Function.comp_apply, has_eq_testBit, hbit]
  simp only [hword, hi, dite_true]

/-- The induction is on the number of words walked through. -/
theorem flatMap_words (s : Bitset n) (count : Nat) (hcount : count ≤ n) :
    (s.toList.zipIdx.take count).flatMap (fun (word, wordIdx) => wordIds word (64 * wordIdx)) =
      (List.range (64 * count)).filter fun id => s.has id := by
  induction count with
  | zero => rfl
  | succ count ih =>
      have hlt : count < s.toList.zipIdx.length := by simpa using hcount
      rw [List.take_succ_eq_append_getElem hlt, List.flatMap_append, ih (by omega),
        List.flatMap_singleton, Nat.mul_succ, List.range_add, List.filter_append]
      have hword : s.toList.zipIdx[count] = (s[count], count) := by simp
      rw [hword]
      exact congrArg _ (wordIds_eq_filter s hcount)

theorem ids_eq (s : Bitset n) : s.ids = (List.range (64 * n)).filter fun id => s.has id := by
  have hall := flatMap_words s n (Nat.le_refl n)
  rwa [List.take_of_length_le (by simp)] at hall

theorem sort_members (s : Bitset n) : s.members.sort (· ≤ ·) = s.ids := by
  have hsorted : s.ids.Pairwise (· < ·) := by
    rw [ids_eq]
    exact List.pairwise_lt_range.filter _
  have hmem : s.ids.toFinset = s.members := by
    ext id
    rw [ids_eq, List.mem_toFinset, List.mem_filter, List.mem_range, members, Finset.mem_filter,
      Finset.mem_range]
  rw [← hmem]
  exact (List.toFinset_sort _ (hsorted.imp Nat.ne_of_lt)).mpr (hsorted.imp Nat.le_of_lt)

/-- Counting the bits of the words counts the members. -/
theorem card_members (s : Bitset n) : s.members.card = s.count := by
  have hlength : s.ids.length = s.count := by
    rw [ids, List.length_flatMap, count]
    have hwords : s.toList.zipIdx.map (fun entry => (wordIds entry.1 (64 * entry.2)).length) =
        s.toList.zipIdx.map (countOnes ∘ Prod.fst) :=
      List.map_congr_left fun entry _ => length_wordIds entry.1 _
    rw [hwords, ← List.map_map, List.zipIdx_map_fst]
  rw [← hlength, ← sort_members, Finset.length_sort]

end Bitset
end Library
