import Mathlib.Data.List.Basic
import Mathlib.Tactic

/-!
Queues with a bound: items go in at the back as long as all of them fit, and come out at the front.
-/

namespace Library

structure BoundedQueue (α : Type) (capacity : Nat) where
  items : List α
  bounded : items.length ≤ capacity

namespace BoundedQueue
variable {α : Type} {capacity : Nat}

def empty (capacity : Nat) : BoundedQueue α capacity := ⟨[], Nat.zero_le _⟩

/-- All items or none of them. -/
def push (q : BoundedQueue α capacity) (items : List α) : Option (BoundedQueue α capacity) :=
  if h : q.items.length + items.length ≤ capacity then
    some ⟨q.items ++ items, List.length_append.trans_le h⟩
  else none

theorem push_of_fits {q : BoundedQueue α capacity} {items : List α}
    (h : q.items.length + items.length ≤ capacity) :
    ∃ q' : BoundedQueue α capacity, q.push items = some q' ∧ q'.items = q.items ++ items :=
  ⟨_, dif_pos h, rfl⟩

theorem push_of_full {q : BoundedQueue α capacity} {items : List α}
    (h : ¬ q.items.length + items.length ≤ capacity) : q.push items = none := dif_neg h

/-- The oldest items, as many as are asked for and there. -/
def front (q : BoundedQueue α capacity) (n : Nat) : List α := q.items.take n

def drop (q : BoundedQueue α capacity) (n : Nat) : BoundedQueue α capacity :=
  ⟨q.items.drop n, (List.drop_sublist n q.items).length_le.trans q.bounded⟩

end BoundedQueue
end Library
