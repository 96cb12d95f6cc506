import Mathlib.Data.List.AList
import Mathlib.Data.List.Induction

/-!
Hash tables as association lists without repeated keys. Insertion, deletion and
lookup are those of `AList`; what a table adds is the number of its entries, the
filtering of entries by key and value, and how both interact with insertion. The
order of the entries stands for the unspecified iteration order of a hash map.
-/

namespace Library

/-- A finite map with decidable keys. -/
abbrev Table (κ : Type*) (ν : Type*) := AList fun _ : κ => ν

namespace Table
variable {κ ν : Type*}

def size (t : Table κ ν) : Nat := t.entries.length

/-- The entries in iteration order. -/
def toPairs (t : Table κ ν) : List (κ × ν) := t.entries.map fun e => (e.1, e.2)

def values (t : Table κ ν) : List ν := t.entries.map fun e => e.2

/-- An order in which a hash table is iterated. -/
structure IterationOrder (α : Type*) where
  arrange : List α → List α
  perm : ∀ entries, (arrange entries).Perm entries

theorem perm_id {α : Type*} (entries : List α) : (id entries).Perm entries := .refl _

/-- Keep the entries that satisfy the predicate. -/
def retain (p : κ → ν → Bool) (t : Table κ ν) : Table κ ν :=
  ⟨t.entries.filter fun e => p e.1 e.2,
    List.NodupKeys.sublist List.filter_sublist t.nodupKeys⟩

/-- Change every value. -/
def mapValues (f : ν → ν) (t : Table κ ν) : Table κ ν :=
  ⟨t.entries.map fun e => ⟨e.1, f e.2⟩, by
    rw [List.NodupKeys, List.keys, List.map_map]
    exact t.nodupKeys⟩

@[simp] theorem size_empty : size (∅ : Table κ ν) = 0 := rfl

theorem size_eq_keys (t : Table κ ν) : t.size = t.keys.length := by
  simp [size, AList.keys, List.keys]

theorem size_retain_le (p : κ → ν → Bool) (t : Table κ ν) : (t.retain p).size ≤ t.size :=
  List.length_filter_le _ _

theorem nodup_keys_toPairs (t : Table κ ν) : (t.toPairs.map Prod.fst).Nodup := by
  rw [toPairs, List.map_map]
  exact t.nodupKeys

theorem nodup_toPairs (t : Table κ ν) : t.toPairs.Nodup := t.nodup_keys_toPairs.of_map _

variable [DecidableEq κ]

theorem lookup_eq_some_iff {k : κ} {v : ν} {t : Table κ ν} :
    t.lookup k = some v ↔ ⟨k, v⟩ ∈ t.entries :=
  AList.mem_lookup_iff

theorem mem_toPairs_iff {k : κ} {v : ν} {t : Table κ ν} :
    (k, v) ∈ t.toPairs ↔ t.lookup k = some v := by
  rw [lookup_eq_some_iff, toPairs, List.mem_map]
  constructor
  · rintro ⟨e, he, hkv⟩
    cases hkv
    exact he
  · intro h
    exact ⟨_, h, rfl⟩

/-- Tables that agree on the pairs a predicate selects list them in some order each. -/
theorem filter_toPairs_perm {p : κ × ν → Bool} {s t : Table κ ν}
    (h : ∀ k v, p (k, v) = true → (s.lookup k = some v ↔ t.lookup k = some v)) :
    (s.toPairs.filter p).Perm (t.toPairs.filter p) := by
  rw [List.perm_ext_iff_of_nodup (s.nodup_toPairs.filter p) (t.nodup_toPairs.filter p)]
  rintro ⟨k, v⟩
  simp only [List.mem_filter, mem_toPairs_iff]
  exact and_congr_left fun hp => h k v hp

theorem lookup_retain_eq_some_iff {p : κ → ν → Bool} {k : κ} {v : ν} {t : Table κ ν} :
    (t.retain p).lookup k = some v ↔ t.lookup k = some v ∧ p k v := by
  rw [lookup_eq_some_iff, lookup_eq_some_iff]
  simp [retain]

theorem lookup_mapValues (f : ν → ν) (k : κ) (t : Table κ ν) :
    (t.mapValues f).lookup k = (t.lookup k).map f := by
  refine Option.ext fun v => ?_
  rw [lookup_eq_some_iff, Option.map_eq_some_iff, mapValues, List.mem_map]
  constructor
  · rintro ⟨e, he, heq⟩
    cases heq
    exact ⟨e.2, lookup_eq_some_iff.mpr he, rfl⟩
  · rintro ⟨w, hw, rfl⟩
    exact ⟨_, lookup_eq_some_iff.mp hw, rfl⟩

theorem lookup_insert_eq (k a : κ) (v : ν) (t : Table κ ν) :
    (AList.insert k v t).lookup a = if a = k then some v else t.lookup a := by
  by_cases h : a = k
  · subst h
    simp
  · rw [if_neg h, AList.lookup_insert_ne h]

theorem lookup_erase_eq (k a : κ) (t : Table κ ν) :
    (AList.erase k t).lookup a = if a = k then none else t.lookup a := by
  by_cases h : a = k
  · subst h
    simp
  · rw [if_neg h, AList.lookup_erase_ne h]

/-- What is left was there. -/
theorem lookup_of_lookup_erase {k a : κ} {v : ν} {t : Table κ ν}
    (h : (AList.erase k t).lookup a = some v) : t.lookup a = some v := by
  rw [lookup_erase_eq] at h
  split at h
  · cases h
  · exact h

theorem lookup_foldl_insert_of_notMem {k : κ} {pairs : List (κ × ν)}
    (h : k ∉ pairs.map Prod.fst) (t : Table κ ν) :
    (pairs.foldl (fun t pair => AList.insert pair.1 pair.2 t) t).lookup k = t.lookup k := by
  induction pairs generalizing t with
  | nil => rfl
  | cons pair rest ih =>
      rw [List.map_cons, List.mem_cons, not_or] at h
      rw [List.foldl_cons, ih h.2, lookup_insert_eq, if_neg h.1]

/-- The induction is on the pairs, the last one first: it decides, and is the key's only value or
another key's. -/
theorem lookup_foldl_insert_of_mem {k : κ} {v : ν} {pairs : List (κ × ν)} (hmem : (k, v) ∈ pairs)
    (honly : ∀ w, (k, w) ∈ pairs → w = v) (t : Table κ ν) :
    (pairs.foldl (fun t pair => AList.insert pair.1 pair.2 t) t).lookup k = some v := by
  induction pairs using List.reverseRecOn with
  | nil => cases hmem
  | append_singleton pairs pair ih =>
      rw [List.foldl_append, List.foldl_cons, List.foldl_nil, lookup_insert_eq]
      by_cases hkey : k = pair.1
      · subst hkey
        rw [if_pos rfl, honly pair.2 (List.mem_append_right _ List.mem_cons_self)]
      · have hbefore : (k, v) ∈ pairs := by
          rcases List.mem_append.mp hmem with hbefore | hlast
          · exact hbefore
          · obtain rfl := List.mem_singleton.mp hlast
            exact absurd rfl hkey
        rw [if_neg hkey]
        exact ih hbefore fun w hw => honly w (List.mem_append_left _ hw)

/-- What is found was inserted, or was there before. -/
theorem mem_of_lookup_foldl_insert {k : κ} {v : ν} {pairs : List (κ × ν)} {t : Table κ ν}
    (h : (pairs.foldl (fun t pair => AList.insert pair.1 pair.2 t) t).lookup k = some v) :
    (k, v) ∈ pairs ∨ t.lookup k = some v := by
  induction pairs using List.reverseRecOn with
  | nil => exact .inr h
  | append_singleton pairs pair ih =>
      rw [List.foldl_append, List.foldl_cons, List.foldl_nil, lookup_insert_eq] at h
      split at h
      · next hkey =>
          obtain rfl := Option.some.inj h
          rw [hkey]
          exact .inl (List.mem_append_right _ List.mem_cons_self)
      · exact (ih h).imp_left (List.mem_append_left _)

/-- A table that is filled with the entries of another has its contents. -/
theorem lookup_copy (t : Table κ ν) (k : κ) :
    (t.toPairs.foldl (fun t pair => AList.insert pair.1 pair.2 t) (∅ : Table κ ν)).lookup k =
      t.lookup k := by
  cases hlookup : t.lookup k with
  | some v =>
      refine lookup_foldl_insert_of_mem (mem_toPairs_iff.mpr hlookup) (fun w hw => ?_) ∅
      exact Option.some.inj ((mem_toPairs_iff.mp hw).symm.trans hlookup)
  | none =>
      rw [lookup_foldl_insert_of_notMem]
      · rfl
      · intro hkey
        obtain ⟨⟨_, v⟩, hpair, rfl⟩ := List.mem_map.mp hkey
        rw [mem_toPairs_iff.mp hpair] at hlookup
        cases hlookup

/-- A fresh key adds exactly one entry. -/
theorem size_insert_of_lookup_none {k : κ} (v : ν) {t : Table κ ν} (h : t.lookup k = none) :
    size (AList.insert k v t) = size t + 1 := by
  rw [size, AList.entries_insert_of_notMem (AList.lookup_eq_none.mp h)]
  rfl

theorem erase_of_lookup_none {k : κ} {t : Table κ ν} (h : t.lookup k = none) :
    AList.erase k t = t :=
  AList.ext (List.kerase_of_notMem_keys (AList.lookup_eq_none.mp h))

theorem erase_insert (k : κ) (v : ν) (t : Table κ ν) :
    AList.erase k (AList.insert k v t) = AList.erase k t := by
  refine AList.ext ?_
  exact List.kerase_cons_eq (s := ⟨k, v⟩) (l := List.kerase k t.entries) rfl

/-- Replacing the value of a key changes no size. -/
theorem size_insert_of_lookup_some {k : κ} (v : ν) {v' : ν} {t : Table κ ν}
    (h : t.lookup k = some v') : size (AList.insert k v t) = size t := by
  have hmem : k ∈ t.keys := AList.lookup_isSome.mp (by simp [h])
  have hpos := List.length_pos_of_mem hmem
  rw [size_eq_keys, size_eq_keys, AList.keys_insert, List.length_cons,
    List.length_erase_of_mem hmem]
  omega

theorem size_erase_of_lookup_some {k : κ} {v : ν} {t : Table κ ν} (h : t.lookup k = some v) :
    size (AList.erase k t) + 1 = size t := by
  have hmem : k ∈ t.keys := AList.lookup_isSome.mp (by simp [h])
  have hpos := List.length_pos_of_mem hmem
  rw [size_eq_keys, size_eq_keys, AList.keys_erase, List.length_erase_of_mem hmem]
  omega

end Table
end Library
