import Dcp.Library.Bytes

/-!
A ring of bytes: a memory in which positions go on at the front when they reach the end. What
lies from a position on is a window of the memory, and a store of bytes behind a window appends
them to it.
-/

namespace Library
namespace Ring

/-- Store the bytes from `start` on, the part that does not fit at the front. -/
def store (memory : List UInt8) (start : Nat) (data : List UInt8) : List UInt8 :=
  if start + data.length ≤ memory.length then overwrite memory start data
  else
    let firstPart := memory.length - start
    overwrite (overwrite memory start (data.take firstPart)) 0 (data.drop firstPart)

/-- Load `n` bytes from `start` on, those past the end from the front. -/
def load (memory : List UInt8) (start n : Nat) : List UInt8 :=
  if start + n ≤ memory.length then (memory.drop start).take n
  else
    let firstPart := memory.length - start
    memory.drop start ++ memory.take (n - firstPart)

/-- The `n` bytes from a position on; positions are taken modulo the size of the memory. -/
def window (memory : List UInt8) (pos n : Nat) : List UInt8 := (memory.rotate pos).take n

variable {memory data : List UInt8} {pos start n k : Nat}

theorem length_store (hstart : start ≤ memory.length) (hdata : data.length ≤ memory.length) :
    (store memory start data).length = memory.length := by
  unfold store
  split
  · case isTrue hfits => exact length_overwrite hfits
  · case isFalse hwraps =>
      have hfirst : (overwrite memory start (data.take (memory.length - start))).length =
          memory.length := by
        apply length_overwrite
        rw [List.length_take]
        omega
      rw [length_overwrite, hfirst]
      rw [hfirst, List.length_drop]
      omega

theorem length_window (hn : n ≤ memory.length) : (window memory pos n).length = n := by
  rw [window, List.length_take, List.length_rotate]
  omega

theorem take_window (hk : k ≤ n) : (window memory pos n).take k = window memory pos k := by
  rw [window, List.take_take, Nat.min_eq_left hk, window]

/-- Positions that agree modulo the size of the memory begin the same window. -/
theorem window_congr {pos' : Nat} (h : pos % memory.length = pos' % memory.length) :
    window memory pos n = window memory pos' n := by
  rw [window, window, ← List.rotate_mod, h, List.rotate_mod]

theorem rotate_add (hn : n ≤ memory.length) :
    memory.rotate (pos + n) = (memory.rotate pos).drop n ++ (memory.rotate pos).take n := by
  rw [← List.rotate_rotate, List.rotate_eq_drop_append_take]
  rw [List.length_rotate]
  exact hn

theorem window_add (h : n + k ≤ memory.length) :
    window memory pos (n + k) = window memory pos n ++ window memory (pos + n) k := by
  have hlength : k ≤ ((memory.rotate pos).drop n).length := by
    rw [List.length_drop, List.length_rotate]
    omega
  rw [window, window, window, rotate_add (by omega), List.take_append_of_le_length hlength,
    List.take_add]

theorem drop_window (h : n + k ≤ memory.length) :
    (window memory pos (n + k)).drop n = window memory (pos + n) k := by
  have hlength : (window memory pos n).length = n := length_window (by omega)
  rw [window_add h, List.drop_left' hlength]

theorem load_eq_window (hstart : start ≤ memory.length) (hn : n ≤ memory.length) :
    load memory start n = window memory start n := by
  rw [window, List.rotate_eq_drop_append_take hstart]
  unfold load
  split
  · case isTrue hfits =>
      rw [List.take_append_of_le_length]
      rw [List.length_drop]
      omega
  · case isFalse hwraps =>
      have hfirst : (memory.drop start).length = memory.length - start := List.length_drop
      rw [List.take_append, hfirst, List.take_of_length_le (by omega), List.take_take,
        Nat.min_eq_left (by omega)]

/-- A store that reaches the end leaves only the bytes between its two parts. -/
theorem store_wraps (hstart : start ≤ memory.length) (hdata : data.length ≤ memory.length)
    (hwraps : ¬ start + data.length ≤ memory.length) :
    store memory start data =
      data.drop (memory.length - start) ++
        (memory.take start).drop (data.length - (memory.length - start)) ++
          data.take (memory.length - start) := by
  have hfirst : (data.take (memory.length - start)).length = memory.length - start := by
    rw [List.length_take]
    omega
  have hend : memory.drop (start + (memory.length - start)) = [] :=
    List.drop_eq_nil_of_le (by omega)
  have hsecond : (data.drop (memory.length - start)).length ≤ (memory.take start).length := by
    rw [List.length_drop, List.length_take]
    omega
  rw [store, if_neg hwraps]
  simp only [overwrite]
  rw [hfirst, hend, List.append_nil, List.take_zero, List.nil_append, Nat.zero_add,
    List.drop_append_of_le_length hsecond, List.length_drop, List.append_assoc]

/-- Seen from where they begin, the stored bytes come first and the rest of the memory stays. -/
theorem rotate_store (hstart : start ≤ memory.length) (hdata : data.length ≤ memory.length) :
    (store memory start data).rotate start =
      data ++ (memory.rotate start).drop data.length := by
  have hlength := length_store hstart hdata
  rw [List.rotate_eq_drop_append_take (hlength ▸ hstart), List.rotate_eq_drop_append_take hstart]
  have hfront : (memory.take start).length = start := by
    rw [List.length_take]
    omega
  by_cases hfits : start + data.length ≤ memory.length
  · have hback : data.length ≤ (memory.drop start).length := by
      rw [List.length_drop]
      omega
    rw [store, if_pos hfits, overwrite, List.append_assoc, List.drop_left' hfront,
      List.take_left' hfront, List.drop_append_of_le_length hback, List.drop_drop,
      List.append_assoc]
  · have hmiddle : (data.drop (memory.length - start) ++
        (memory.take start).drop (data.length - (memory.length - start))).length = start := by
      rw [List.length_append, List.length_drop, List.length_drop, hfront]
      omega
    have hback : (memory.drop start).length = memory.length - start := List.length_drop
    have hnone : (memory.drop start).drop data.length = [] :=
      List.drop_eq_nil_of_le (by omega)
    rw [store_wraps hstart hdata hfits, List.drop_left' hmiddle, List.take_left' hmiddle,
      ← List.append_assoc, List.take_append_drop, List.drop_append, hback, hnone, List.nil_append]

theorem window_store (hstart : start ≤ memory.length) (hdata : data.length ≤ memory.length) :
    window (store memory start data) start data.length = data := by
  rw [window, rotate_store hstart hdata, List.take_left' rfl]

/-- A store behind a window leaves the window as it is. -/
theorem window_store_behind (h : n + data.length ≤ memory.length) :
    window (store memory ((pos + n) % memory.length) data) pos n = window memory pos n := by
  rcases Nat.eq_zero_or_pos memory.length with hzero | hpos
  · have hn : n = 0 := by omega
    subst hn
    rfl
  have hstart : (pos + n) % memory.length ≤ memory.length := (Nat.mod_lt _ hpos).le
  have hdata : data.length ≤ memory.length := by omega
  have hstored := rotate_store hstart hdata
  have hlength := length_store hstart hdata
  generalize store memory ((pos + n) % memory.length) data = stored at hstored hlength ⊢
  have hback : data.length ≤ ((memory.rotate pos).drop n).length := by
    rw [List.length_drop, List.length_rotate]
    omega
  rw [← hlength, List.rotate_mod, hlength, List.rotate_mod, rotate_add (hlength.symm ▸ by omega),
    rotate_add (by omega), List.drop_append_of_le_length hback, ← List.append_assoc] at hstored
  refine List.append_inj_right' hstored ?_
  rw [length_window (by omega), length_window (by omega)]

end Ring
end Library
