import Dcp.Library.Text

/-!
Texts with gaps: parts that occur one after the other with anything in between. Taking the first
occurrence of each part leaves the most of the text, so that the search for the parts never has to
go back.
-/

namespace Library

theorem splitOnce_eq_none {c : Char} {text : List Char} (h : c ∉ text) :
    splitOnce c text = none := by
  induction text with
  | nil => rfl
  | cons d text ih =>
      have hne : d ≠ c := fun heq => h (by rw [heq]; exact List.mem_cons_self)
      rw [splitOnce, if_neg hne, ih fun hmem => h (List.mem_cons_of_mem d hmem)]
      rfl

theorem splitOnce_append {c : Char} {before : List Char} (h : c ∉ before) (after : List Char) :
    splitOnce c (before ++ c :: after) = some (before, after) := by
  induction before with
  | nil => rw [List.nil_append, splitOnce, if_pos rfl]
  | cons d before ih =>
      have hne : d ≠ c := fun heq => h (by rw [heq]; exact List.mem_cons_self)
      rw [List.cons_append, splitOnce, if_neg hne, ih fun hmem => h (List.mem_cons_of_mem d hmem)]
      rfl

section
variable {part text before after : List Char}

theorem findText_eq_some (h : findText part text = some (before, after)) :
    text = before ++ part ++ after := by
  induction text generalizing before with
  | nil => cases h
  | cons c text ih =>
      rw [findText] at h
      split at h
      · next hprefix =>
          cases h
          obtain ⟨rest, hrest⟩ := List.isPrefixOf_iff_prefix.mp hprefix
          rw [← hrest, List.drop_left, List.nil_append]
      · obtain ⟨found, hfound, heq⟩ := Option.map_eq_some_iff.mp h
        cases heq
        rw [ih hfound]
        rfl

theorem findText_front (h : part ≠ []) (rest : List Char) :
    findText part (part ++ rest) = some ([], rest) := by
  cases part with
  | nil => exact absurd rfl h
  | cons c part =>
      have hprefix : (c :: part).isPrefixOf (c :: (part ++ rest)) = true :=
        List.isPrefixOf_iff_prefix.mpr ⟨rest, rfl⟩
      rw [List.cons_append, findText, if_pos hprefix]
      have hdrop : ((c :: part) ++ rest).drop (c :: part).length = rest := List.drop_left
      exact congrArg (fun after => some ([], after)) hdrop

theorem findText_of_not_mem {c : Char} (h : c ∉ before) (part rest : List Char) :
    findText (c :: part) (before ++ c :: part ++ rest) = some (before, rest) := by
  induction before with
  | nil => exact findText_front (List.cons_ne_nil c part) rest
  | cons d before ih =>
      have hne : c ≠ d := fun heq => h (by rw [heq]; exact List.mem_cons_self)
      have hprefix : (c :: part).isPrefixOf (d :: (before ++ c :: part ++ rest)) = false := by
        simp [List.isPrefixOf, hne]
      rw [List.cons_append, List.cons_append, findText,
        ih fun hmem => h (List.mem_cons_of_mem d hmem), hprefix]
      rfl

/-- The first occurrence leaves at least what any other one leaves. -/
theorem findText_gap (h : part ≠ []) (gap rest : List Char) :
    ∃ before after, findText part (gap ++ part ++ rest) = some (before, after) ∧
      rest <:+ after := by
  induction gap with
  | nil => exact ⟨[], rest, findText_front h rest, List.suffix_rfl⟩
  | cons c gap ih =>
      obtain ⟨before, after, hfound, hsuffix⟩ := ih
      rw [List.cons_append, List.cons_append, findText, hfound]
      split
      · next hprefix =>
          refine ⟨[], _, rfl, ?_⟩
          -- The part starts here, before the gap ends.
          rw [List.append_assoc, ← List.cons_append, ← List.append_assoc]
          refine List.suffix_of_suffix_length_le (List.suffix_append _ rest)
            (List.drop_suffix _ _) ?_
          simp only [List.length_drop, List.length_append, List.length_cons]
          omega
      · exact ⟨c :: before, after, rfl, hsuffix⟩

end

/-- The parts occur one after the other, each after a gap, and `rest` is left. -/
inductive Skips : List (List Char) → List Char → List Char → Prop
  | nil (rest : List Char) : Skips [] rest rest
  | cons {part : List Char} {parts : List (List Char)} {text rest : List Char} (gap : List Char)
      (h : Skips parts text rest) : Skips (part :: parts) (gap ++ part ++ text) rest

namespace Skips
variable {parts : List (List Char)} {text rest : List Char}

/-- What is left does not matter for where the parts occur. -/
theorem front (h : Skips parts text rest) :
    ∃ front, text = front ++ rest ∧ ∀ rest', Skips parts (front ++ rest') rest' := by
  induction h with
  | nil rest => exact ⟨[], rfl, .nil⟩
  | @cons part parts text rest gap h ih =>
      obtain ⟨front, rfl, hfront⟩ := ih
      refine ⟨gap ++ part ++ front, (List.append_assoc _ _ _).symm, ?_⟩
      intro rest'
      rw [List.append_assoc]
      exact .cons gap (hfront rest')

/-- Before an empty last part anything may be left. -/
theorem append_empty_iff :
    Skips (parts ++ [[]]) text rest ↔ ∃ left, Skips parts text left ∧ rest <:+ left := by
  induction parts generalizing text with
  | nil =>
      constructor
      · intro h
        cases h with
        | @cons _ _ text _ gap h =>
            cases h
            exact ⟨_, .nil _, List.suffix_append _ _⟩
      · rintro ⟨left, h, gap, rfl⟩
        cases h
        have hskips : Skips [[]] (gap ++ [] ++ rest) rest := .cons gap (.nil rest)
        simpa using hskips
  | cons part parts ih =>
      constructor
      · intro h
        cases h with
        | cons gap h =>
            obtain ⟨left, hleft, hsuffix⟩ := ih.mp h
            exact ⟨left, .cons gap hleft, hsuffix⟩
      · rintro ⟨left, h, hsuffix⟩
        cases h with
        | cons gap h => exact .cons gap (ih.mpr ⟨left, h, hsuffix⟩)

end Skips
end Library
