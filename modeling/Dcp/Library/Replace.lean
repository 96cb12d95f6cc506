import Dcp.Library.Text

/-!
Where `replace` finds the texts it replaces, and what it makes of a text that is cut where none of
them starts.
-/

namespace Library

/-- Where the occurrences start that `replaceFrom` replaces, when the text starts at `offset`. -/
def matchesFrom (part : List Char) : Nat → Nat → List Char → List Nat
  | _, _, [] => []
  | offset, skip + 1, _ :: text => matchesFrom part (offset + 1) skip text
  | offset, 0, c :: text =>
      if part.isPrefixOf (c :: text) then
        offset :: matchesFrom part (offset + 1) (part.length - 1) text
      else matchesFrom part (offset + 1) 0 text

/-- No occurrence starts in `before`, also none that goes on into `after`. -/
def noneStartsIn (part : List Char) : List Char → List Char → Bool
  | [], _ => true
  | c :: before, after =>
      !part.isPrefixOf (c :: (before ++ after)) && noneStartsIn part before after

variable {part : List Char}

theorem replaceFrom_skip (new : List Char) (skip : Nat) (text : List Char) :
    replaceFrom part new skip text = replaceFrom part new 0 (text.drop skip) := by
  induction text generalizing skip with
  | nil => cases skip <;> rfl
  | cons c text ih =>
      cases skip with
      | zero => rfl
      | succ skip => exact ih skip

theorem matchesFrom_skip (offset : Nat) {skip : Nat} {text : List Char} (h : skip ≤ text.length) :
    matchesFrom part offset skip text = matchesFrom part (offset + skip) 0 (text.drop skip) := by
  induction text generalizing offset skip with
  | nil =>
      obtain rfl := Nat.le_zero.mp h
      rfl
  | cons c text ih =>
      cases skip with
      | zero => rfl
      | succ skip =>
          rw [matchesFrom, ih (offset + 1) (Nat.le_of_succ_le_succ h), List.drop_succ_cons,
            Nat.add_right_comm, Nat.add_assoc]

/-- An occurrence in front is replaced, and the search goes on after it. -/
theorem replaceFrom_part (hpart : part ≠ []) (new text : List Char) :
    replaceFrom part new 0 (part ++ text) = new ++ replaceFrom part new 0 text := by
  cases part with
  | nil => exact absurd rfl hpart
  | cons d rest =>
      have hprefix : (d :: rest).isPrefixOf (d :: (rest ++ text)) = true :=
        List.isPrefixOf_iff_prefix.mpr (List.prefix_append (d :: rest) text)
      rw [List.cons_append, replaceFrom, if_pos hprefix, replaceFrom_skip, List.length_cons,
        Nat.add_sub_cancel, List.drop_left]

theorem matchesFrom_part (hpart : part ≠ []) (offset : Nat) (text : List Char) :
    matchesFrom part offset 0 (part ++ text) =
      offset :: matchesFrom part (offset + part.length) 0 text := by
  cases part with
  | nil => exact absurd rfl hpart
  | cons d rest =>
      have hprefix : (d :: rest).isPrefixOf (d :: (rest ++ text)) = true :=
        List.isPrefixOf_iff_prefix.mpr (List.prefix_append (d :: rest) text)
      have hskip : rest.length ≤ (rest ++ text).length := by
        rw [List.length_append]
        exact Nat.le_add_right _ _
      rw [List.cons_append, matchesFrom, if_pos hprefix, List.length_cons, Nat.add_sub_cancel,
        matchesFrom_skip (offset + 1) hskip, List.drop_left, Nat.add_assoc, Nat.add_comm 1]

theorem replaceFrom_append (new : List Char) {before after : List Char}
    (h : noneStartsIn part before after = true) :
    replaceFrom part new 0 (before ++ after) = before ++ replaceFrom part new 0 after := by
  induction before with
  | nil => rfl
  | cons c before ih =>
      rw [noneStartsIn, Bool.and_eq_true, Bool.not_eq_true'] at h
      rw [List.cons_append, replaceFrom, h.1, ih h.2]
      rfl

theorem matchesFrom_append (offset : Nat) {before after : List Char}
    (h : noneStartsIn part before after = true) :
    matchesFrom part offset 0 (before ++ after) =
      matchesFrom part (offset + before.length) 0 after := by
  induction before generalizing offset with
  | nil => rfl
  | cons c before ih =>
      rw [noneStartsIn, Bool.and_eq_true, Bool.not_eq_true'] at h
      rw [List.cons_append, matchesFrom, h.1, if_neg Bool.false_ne_true, ih (offset + 1) h.2,
        List.length_cons, Nat.add_assoc, Nat.add_comm 1]

/-- When the first occurrence found starts after a text, none starts in it. -/
theorem noneStartsIn_of_matches (offset : Nat) {before after : List Char}
    (h : ∀ position ∈ matchesFrom part offset 0 (before ++ after),
      offset + before.length ≤ position) : noneStartsIn part before after = true := by
  induction before generalizing offset with
  | nil => rfl
  | cons c before ih =>
      rw [List.cons_append, matchesFrom] at h
      split at h
      · have hfirst := h offset List.mem_cons_self
        rw [List.length_cons] at hfirst
        omega
      · next hprefix =>
          rw [Bool.not_eq_true] at hprefix
          rw [noneStartsIn, hprefix, Bool.not_false, Bool.true_and]
          refine ih (offset + 1) fun position hposition => ?_
          have hle := h position hposition
          rw [List.length_cons] at hle
          omega

/-- Replacing a single character. -/
theorem replaceFrom_char (old : Char) (new text : List Char) :
    replaceFrom [old] new 0 text = text.flatMap fun c => if c = old then new else [c] := by
  induction text with
  | nil => rfl
  | cons c text ih =>
      rw [List.flatMap_cons, replaceFrom, List.length_singleton, Nat.sub_self, ih]
      simp only [List.isPrefixOf, Bool.and_true, beq_iff_eq, eq_comm (a := old)]
      split
      · rfl
      · rfl

end Library
