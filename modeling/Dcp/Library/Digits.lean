import Mathlib.Tactic

/-!
Numbers written with the digits of a base up to sixteen, filled up with zeros to a width. The digits
read back as the number, so that two numbers written alike are equal.
-/

namespace Library

/-- The value of a digit; the letters from `a` on stand for ten and more. -/
def digitValue (c : Char) : Nat := if c.isDigit then c.toNat - 48 else c.toNat - 87

/-- The number that digits stand for. -/
def ofDigits (b : Nat) (digits : List Char) : Nat :=
  digits.foldl (fun n c => b * n + digitValue c) 0

/-- The digits of a number, with zeros before them up to the width. -/
def paddedDigits (width b n : Nat) : List Char := List.leftpad width '0' (Nat.toDigits b n)

theorem digitValue_digitChar : ∀ d < 16, digitValue (Nat.digitChar d) = d := by decide

theorem ofDigits_concat (b : Nat) (digits : List Char) (c : Char) :
    ofDigits b (digits ++ [c]) = b * ofDigits b digits + digitValue c := by
  rw [ofDigits, List.foldl_append]
  rfl

/-- The induction takes off the last digit. -/
theorem ofDigits_toDigits {b : Nat} (hb : 1 < b) (hb' : b ≤ 16) (n : Nat) :
    ofDigits b (Nat.toDigits b n) = n := by
  induction n using Nat.base_induction b hb with
  | single m hm =>
      rw [Nat.toDigits_of_lt_base hm]
      exact (Nat.zero_add _).trans (digitValue_digitChar m (by omega))
  | digit m k hk hm ih =>
      rw [← Nat.toDigits_append_toDigits hb hm hk, Nat.toDigits_of_lt_base hk, ofDigits_concat, ih,
        digitValue_digitChar k (by omega)]

theorem ofDigits_zeros (b n : Nat) (digits : List Char) :
    ofDigits b (List.replicate n '0' ++ digits) = ofDigits b digits := by
  induction n with
  | zero => rfl
  | succ n ih => exact ih

theorem ofDigits_paddedDigits {b : Nat} (hb : 1 < b) (hb' : b ≤ 16) (width n : Nat) :
    ofDigits b (paddedDigits width b n) = n := by
  rw [paddedDigits, List.leftpad, ofDigits_zeros, ofDigits_toDigits hb hb']

theorem paddedDigits_injective {b : Nat} (hb : 1 < b) (hb' : b ≤ 16) (width : Nat) :
    Function.Injective (paddedDigits width b) :=
  Function.LeftInverse.injective (ofDigits_paddedDigits hb hb' width)

theorem exists_digit_of_mem_toDigits {b n : Nat} (hb : 1 < b) {c : Char}
    (hc : c ∈ Nat.toDigits b n) : ∃ d < b, Nat.digitChar d = c := by
  induction n using Nat.base_induction b hb with
  | single m hm =>
      rw [Nat.toDigits_of_lt_base hm, List.mem_singleton] at hc
      exact ⟨m, hm, hc.symm⟩
  | digit m k hk hm ih =>
      rw [← Nat.toDigits_append_toDigits hb hm hk, List.mem_append, Nat.toDigits_of_lt_base hk,
        List.mem_singleton] at hc
      obtain hc | hc := hc
      · exact ih hc
      · exact ⟨k, hk, hc.symm⟩

theorem exists_digit_of_mem_paddedDigits {width b n : Nat} (hb : 1 < b) {c : Char}
    (hc : c ∈ paddedDigits width b n) : ∃ d < b, Nat.digitChar d = c := by
  rw [paddedDigits, List.leftpad, List.mem_append] at hc
  obtain hzero | hdigit := hc
  · exact ⟨0, by omega, (List.eq_of_mem_replicate hzero).symm⟩
  · exact exists_digit_of_mem_toDigits hb hdigit

end Library
