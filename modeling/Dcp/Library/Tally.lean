import Dcp.Library.Table
import Mathlib.Tactic

/-!
Counters of 64 bits in a hash table. What is counted for a key is the sum of the amounts, up to the
wrap of the counter, in whatever order the amounts come.
-/

namespace Library.Table
variable {κ : Type*} [DecidableEq κ]

/-- Add to the counter of a key; a counter that is not there starts at zero. -/
def count (t : Table κ UInt64) (entry : κ × UInt64) : Table κ UInt64 :=
  AList.insert entry.1 ((t.lookup entry.1).getD 0 + entry.2) t

def total (entries : List (κ × UInt64)) (key : κ) : Nat :=
  ((entries.filter fun entry => entry.1 = key).map fun entry => entry.2.toNat).sum

theorem total_concat (entries : List (κ × UInt64)) (entry : κ × UInt64) (key : κ) :
    total (entries ++ [entry]) key =
      total entries key + if entry.1 = key then entry.2.toNat else 0 := by
  rw [total, total, List.filter_append, List.map_append, List.sum_append, List.filter_cons]
  split <;> simp_all

theorem total_eq_zero {entries : List (κ × UInt64)} {key : κ} (h : key ∉ entries.map Prod.fst) :
    total entries key = 0 := by
  have hnone : entries.filter (fun entry => entry.1 = key) = [] := by
    rw [List.filter_eq_nil_iff]
    intro entry hentry hkey
    exact h (List.mem_map.mpr ⟨entry, hentry, of_decide_eq_true hkey⟩)
  rw [total, hnone]
  rfl

/-- The induction is on the entries, the last one first. -/
theorem lookup_foldl_count (entries : List (κ × UInt64)) (key : κ) :
    (entries.foldl count (∅ : Table κ UInt64)).lookup key =
      if key ∈ entries.map Prod.fst then some (UInt64.ofNat (total entries key)) else none := by
  induction entries using List.reverseRecOn with
  | nil => rfl
  | append_singleton entries entry ih =>
      rw [List.foldl_append, List.foldl_cons, List.foldl_nil, count, lookup_insert_eq, total_concat]
      have hkeys : key ∈ (entries ++ [entry]).map Prod.fst ↔
          key ∈ entries.map Prod.fst ∨ key = entry.1 := by
        rw [List.map_append, List.mem_append, List.map_singleton, List.mem_singleton]
      by_cases hkey : key = entry.1
      · subst hkey
        rw [if_pos rfl, if_pos rfl, if_pos (hkeys.mpr (.inr rfl)), ih, UInt64.ofNat_add,
          UInt64.ofNat_toNat]
        split
        · rfl
        · next hfresh => rw [total_eq_zero hfresh]; rfl
      · rw [if_neg hkey, if_neg (Ne.symm hkey), Nat.add_zero, ih]
        exact if_congr (hkeys.trans (or_iff_left hkey)).symm rfl rfl

/-- The table has one counter for each key, which shows the total up to the wrap. -/
theorem toPairs_foldl_count (entries : List (κ × UInt64)) :
    (toPairs (entries.foldl count (∅ : Table κ UInt64))).Perm
      ((entries.map Prod.fst).dedup.map fun key => (key, UInt64.ofNat (total entries key))) := by
  have hnodup : ((entries.map Prod.fst).dedup.map fun key =>
      (key, UInt64.ofNat (total entries key))).Nodup :=
    (List.nodup_dedup _).map fun _ _ heq => congrArg Prod.fst heq
  rw [List.perm_ext_iff_of_nodup (nodup_toPairs _) hnodup]
  rintro ⟨key, value⟩
  rw [mem_toPairs_iff, lookup_foldl_count]
  constructor
  · intro h
    split at h
    · next hkey =>
        exact List.mem_map.mpr ⟨key, List.mem_dedup.mpr hkey, by rw [Option.some.inj h]⟩
    · cases h
  · intro h
    obtain ⟨other, hother, heq⟩ := List.mem_map.mp h
    cases heq
    rw [if_pos (List.mem_dedup.mp hother)]

end Library.Table
