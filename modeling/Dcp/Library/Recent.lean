import Mathlib.Data.List.DropRight
import Mathlib.Tactic

/-!
Bounded queues that give up their oldest entries. After any number of pushes such a queue holds the
most recent entries that were pushed, as many as it has room for.
-/

namespace Library
namespace Recent
variable {α : Type} {max : Nat}

/-- Drop the oldest entries while there is no room for another one. -/
def popWhileFull (max : Nat) : List α → List α
  | [] => []
  | entry :: rest =>
      if (entry :: rest).length ≥ max then popWhileFull max rest else entry :: rest

def push (max : Nat) (entries : List α) (entry : α) : List α :=
  if max = 0 then entries else popWhileFull max entries ++ [entry]

theorem popWhileFull_eq_rtake (n : Nat) (entries : List α) :
    popWhileFull (n + 1) entries = entries.rtake n := by
  induction entries with
  | nil => rw [popWhileFull, List.rtake_nil]
  | cons entry rest ih =>
      rw [popWhileFull]
      split
      · next hfull =>
          rw [List.length_cons] at hfull
          rw [ih, List.rtake, List.rtake, List.length_cons, Nat.succ_sub (by omega),
            List.drop_succ_cons]
      · next hroom =>
          rw [List.rtake, Nat.sub_eq_zero_of_le (by omega), List.drop_zero]

theorem rtake_rtake_of_le {n k : Nat} (h : n ≤ k) (entries : List α) :
    (entries.rtake k).rtake n = entries.rtake n := by
  rw [List.rtake, List.rtake, List.rtake, List.drop_drop, List.length_drop]
  congr 1
  omega

/-- The queue of the most recent entries is kept by a push. -/
theorem push_rtake (max : Nat) (entries : List α) (entry : α) :
    push max (entries.rtake max) entry = (entries ++ [entry]).rtake max := by
  cases max with
  | zero => rw [push, if_pos rfl, List.rtake_zero, List.rtake_zero]
  | succ n =>
      rw [push, if_neg (Nat.succ_ne_zero n), popWhileFull_eq_rtake,
        rtake_rtake_of_le (Nat.le_succ n), List.rtake_concat_succ]

theorem length_rtake (max : Nat) (entries : List α) :
    (entries.rtake max).length = min max entries.length := by
  rw [List.rtake, List.length_drop]
  omega

theorem length_rtake_le (max : Nat) (entries : List α) : (entries.rtake max).length ≤ max :=
  (length_rtake max entries).trans_le (Nat.min_le_left _ _)

theorem rtake_of_length_le {n : Nat} {entries : List α} (h : entries.length ≤ n) :
    entries.rtake n = entries := by
  rw [List.rtake, Nat.sub_eq_zero_of_le h, List.drop_zero]

theorem tail_rtake {n : Nat} {entries : List α} (h : n + 1 ≤ entries.length) :
    (entries.rtake (n + 1)).tail = entries.rtake n := by
  rw [List.rtake, List.rtake, List.tail_drop]
  congr 1
  omega

/-- Dropping what a queue has no room for can wait until the next entry has come in. -/
theorem rtake_concat_rtake (max : Nat) (entries : List α) (entry : α) :
    (entries.rtake max ++ [entry]).rtake max = (entries ++ [entry]).rtake max := by
  cases max with
  | zero => rw [List.rtake_zero, List.rtake_zero]
  | succ n =>
      rw [List.rtake_concat_succ, List.rtake_concat_succ, rtake_rtake_of_le (Nat.le_succ n)]

theorem rtake_append_of_le {n : Nat} {back : List α} (h : n ≤ back.length) (front : List α) :
    (front ++ back).rtake n = back.rtake n := by
  rw [List.rtake_eq_reverse_take_reverse, List.rtake_eq_reverse_take_reverse, List.reverse_append,
    List.take_append_of_le_length (by rwa [List.length_reverse])]

/-- An entry with fewer than `n` entries behind it is still there. -/
theorem mem_rtake_append {n : Nat} {back : List α} (front : List α) (entry : α)
    (h : back.length < n) : entry ∈ (front ++ entry :: back).rtake n := by
  have hlast : (front ++ entry :: back).rtake (back.length + 1) = entry :: back := by
    rw [show back.length + 1 = (entry :: back).length from rfl, rtake_append_of_le (Nat.le_refl _),
      rtake_of_length_le (Nat.le_refl _)]
  have hmem : entry ∈ ((front ++ entry :: back).rtake n).rtake (back.length + 1) := by
    rw [rtake_rtake_of_le h, hlast]
    exact List.mem_cons_self
  exact List.mem_of_mem_drop hmem

/-- What has been given up, and what is still there. -/
theorem take_append_rtake (max : Nat) (entries : List α) :
    entries.take (entries.length - max) ++ entries.rtake max = entries :=
  List.take_append_drop _ entries

theorem rtake_eq_nil_iff {entries : List α} : entries.rtake max = [] ↔ max = 0 ∨ entries = [] := by
  rw [List.rtake, List.drop_eq_nil_iff, ← List.length_eq_zero_iff]
  omega

theorem getLast?_rtake (h : 1 ≤ max) (entries : List α) :
    (entries.rtake max).getLast? = entries.getLast? := by
  rw [List.rtake, List.getLast?_drop]
  split
  · next hdropped =>
      have hnone : entries = [] := List.length_eq_zero_iff.1 (by omega)
      rw [hnone, List.getLast?_nil]
  · rfl

end Recent
end Library
