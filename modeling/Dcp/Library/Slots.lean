import Mathlib.Data.List.Basic
import Mathlib.Tactic

/-!
A map kept in a fixed number of slots. An entry carries its key, and one key marks the slots that
are free; an entry goes into the slot of its key, or else into the first free one.
-/

namespace Library

abbrev Slots (n : Nat) (α : Type*) := Fin n → α

namespace Slots
variable {n : Nat} {α κ : Type*} [DecidableEq κ]

/-- The first slot with the key. -/
def slotOf (key : α → κ) (slots : Slots n α) (k : κ) : Option (Fin n) :=
  Fin.find? fun i => decide (key (slots i) = k)

def lookup (key : α → κ) (slots : Slots n α) (k : κ) : Option α := (slotOf key slots k).map slots

def put (key : α → κ) (free : κ) (slots : Slots n α) (a : α) : Option (Fin n × Slots n α) :=
  ((slotOf key slots (key a)).or (slotOf key slots free)).map fun i =>
    (i, Function.update slots i a)

/-- No key but the free one is in two slots. -/
def Distinct (key : α → κ) (free : κ) (slots : Slots n α) : Prop :=
  ∀ i j, key (slots i) = key (slots j) → key (slots i) ≠ free → i = j

variable {key : α → κ} {free k : κ} {slots slots' : Slots n α} {a b : α} {i j : Fin n}

theorem slotOf_eq_some_iff :
    slotOf key slots k = some i ↔ key (slots i) = k ∧ ∀ j < i, key (slots j) ≠ k := by
  simp only [slotOf, Fin.find?_eq_some_iff, decide_eq_true_eq, decide_eq_false_iff_not, ne_eq]

theorem slotOf_eq_none_iff : slotOf key slots k = none ↔ ∀ i, key (slots i) ≠ k := by
  simp only [slotOf, Fin.find?_eq_none_iff, decide_eq_false_iff_not, ne_eq]

theorem exists_of_lookup (h : lookup key slots k = some a) : key a = k ∧ ∃ i, slots i = a := by
  obtain ⟨i, hi, rfl⟩ := Option.map_eq_some_iff.mp h
  exact ⟨(slotOf_eq_some_iff.mp hi).1, i, rfl⟩

theorem lookup_eq_some_iff (h : Distinct key free slots) (hk : k ≠ free) :
    lookup key slots k = some a ↔ key a = k ∧ ∃ i, slots i = a := by
  refine ⟨exists_of_lookup, ?_⟩
  rintro ⟨rfl, i, rfl⟩
  refine Option.map_eq_some_iff.mpr ⟨i, slotOf_eq_some_iff.mpr ⟨rfl, ?_⟩, rfl⟩
  intro j hj hkey
  exact absurd (h j i hkey (hkey ▸ hk)) hj.ne

omit [DecidableEq κ] in
/-- A slot may be overwritten, if its new key is free or in no other slot. -/
theorem Distinct.update (h : Distinct key free slots)
    (honly : key a ≠ free → ∀ j, key (slots j) = key a → j = i) :
    Distinct key free (Function.update slots i a) := by
  intro j l hkey hj
  by_cases hji : j = i
  · subst hji
    rw [Function.update_self] at hkey hj
    by_cases hli : l = j
    · exact hli.symm
    · rw [Function.update_of_ne hli] at hkey
      exact (honly hj l hkey.symm).symm
  · rw [Function.update_of_ne hji] at hkey hj
    by_cases hli : l = i
    · subst hli
      rw [Function.update_self] at hkey
      exact honly (hkey ▸ hj) j hkey
    · rw [Function.update_of_ne hli] at hkey
      exact h j l hkey hj

/-- The slot that an entry is put into has its key already, or is free and no slot has its key. -/
theorem put_eq_some_iff : put key free slots a = some (i, slots') ↔
    slots' = Function.update slots i a ∧
      (slotOf key slots (key a) = some i ∨
        slotOf key slots (key a) = none ∧ slotOf key slots free = some i) := by
  rw [put, Option.map_eq_some_iff]
  simp only [Prod.mk.injEq, Option.or_eq_some_iff]
  constructor
  · rintro ⟨_, hslot, rfl, rfl⟩
    exact ⟨rfl, hslot⟩
  · rintro ⟨rfl, hslot⟩
    exact ⟨i, hslot, rfl, rfl⟩

theorem put_eq_none_iff : put key free slots a = none ↔
    ∀ i, key (slots i) ≠ key a ∧ key (slots i) ≠ free := by
  rw [put, Option.map_eq_none_iff, Option.or_eq_none_iff, slotOf_eq_none_iff, slotOf_eq_none_iff,
    forall_and]

theorem Distinct.put (h : Distinct key free slots)
    (hput : Slots.put key free slots a = some (i, slots')) : Distinct key free slots' := by
  obtain ⟨rfl, hslot⟩ := put_eq_some_iff.mp hput
  refine h.update fun hfree j hj => ?_
  rcases hslot with hsame | ⟨hnone, -⟩
  · obtain ⟨hi, -⟩ := slotOf_eq_some_iff.mp hsame
    exact h j i (hj.trans hi.symm) (hj ▸ hfree)
  · exact absurd hj (slotOf_eq_none_iff.mp hnone j)

/-- What is put in is found, under the free key as well. -/
theorem lookup_put_self (hput : Slots.put key free slots a = some (i, slots')) :
    lookup key slots' (key a) = some a := by
  obtain ⟨rfl, hslot⟩ := put_eq_some_iff.mp hput
  have hbefore : ∀ j < i, key (slots j) ≠ key a := by
    intro j hj
    rcases hslot with hsame | ⟨hnone, -⟩
    · exact (slotOf_eq_some_iff.mp hsame).2 j hj
    · exact slotOf_eq_none_iff.mp hnone j
  refine Option.map_eq_some_iff.mpr ⟨i, slotOf_eq_some_iff.mpr ⟨?_, ?_⟩, Function.update_self _ _ _⟩
  · rw [Function.update_self]
  · intro j hj
    rw [Function.update_of_ne hj.ne]
    exact hbefore j hj

/-- A slot that holds another key now and before hides and shows no entry of the key. -/
theorem lookup_update_of_ne (h : Distinct key free slots) (hk : k ≠ free)
    (hdistinct : Distinct key free (Function.update slots i a)) (hnew : key a ≠ k)
    (hold : key (slots i) ≠ k) :
    lookup key (Function.update slots i a) k = lookup key slots k := by
  refine Option.ext fun b => ?_
  rw [lookup_eq_some_iff hdistinct hk, lookup_eq_some_iff h hk]
  refine and_congr_right fun hb => ?_
  constructor
  · rintro ⟨j, rfl⟩
    have hji : j ≠ i := by
      rintro rfl
      rw [Function.update_self] at hb
      exact hnew hb
    exact ⟨j, (Function.update_of_ne hji a slots).symm⟩
  · rintro ⟨j, rfl⟩
    have hji : j ≠ i := by
      rintro rfl
      exact hold hb
    exact ⟨j, Function.update_of_ne hji a slots⟩

theorem lookup_put_of_ne (h : Distinct key free slots)
    (hput : Slots.put key free slots a = some (i, slots')) (hne : k ≠ key a) (hk : k ≠ free) :
    lookup key slots' k = lookup key slots k := by
  have hdistinct := h.put hput
  obtain ⟨rfl, hslot⟩ := put_eq_some_iff.mp hput
  refine lookup_update_of_ne h hk hdistinct hne.symm ?_
  rcases hslot with hsame | ⟨-, hfree⟩
  · exact (slotOf_eq_some_iff.mp hsame).1 ▸ hne.symm
  · exact (slotOf_eq_some_iff.mp hfree).1 ▸ hk.symm

/-- An entry stays in its slot when an entry of another key is put in. -/
theorem put_keeps (hput : Slots.put key free slots b = some (j, slots')) (hi : slots i = a)
    (hne : key a ≠ key b) (hfree : key a ≠ free) : slots' i = a := by
  obtain ⟨rfl, hslot⟩ := put_eq_some_iff.mp hput
  have hij : i ≠ j := by
    rintro rfl
    rcases hslot with hsame | ⟨-, hempty⟩
    · exact hne (hi ▸ (slotOf_eq_some_iff.mp hsame).1)
    · exact hfree (hi ▸ (slotOf_eq_some_iff.mp hempty).1)
  rw [Function.update_of_ne hij, hi]

end Slots
end Library
