import Dcp.Library.Path
import Mathlib.Data.List.DropRight

/-!
Lines of text: texts that are written one to a line and split again, and the blanks around a text
that are stripped.
-/

namespace Library
variable {α : Type*}

/-- The texts, each with its line end. -/
def unlines (eol : α) (texts : List (List α)) : List α := texts.flatMap fun text => text ++ [eol]

theorem unlines_append (eol : α) (texts rest : List (List α)) :
    unlines eol (texts ++ rest) = unlines eol texts ++ unlines eol rest := List.flatMap_append

theorem splitOn_unlines [BEq α] [LawfulBEq α] {eol : α} {texts : List (List α)}
    (h : ∀ text ∈ texts, eol ∉ text) : (unlines eol texts).splitOn eol = texts ++ [[]] := by
  induction texts with
  | nil => exact List.splitOn_nil eol
  | cons text rest ih =>
      obtain ⟨htext, hrest⟩ := List.forall_mem_cons.mp h
      have hcons : unlines eol (text :: rest) = text ++ eol :: unlines eol rest := by
        rw [unlines, List.flatMap_cons, List.append_assoc]
        rfl
      rw [hcons, List.splitOn_append_cons_self, ih hrest, List.splitOn_eq_singleton htext]
      rfl

section Split

theorem mem_of_mem_splitOn [BEq α] {eol : α} {text part : List α} (h : part ∈ text.splitOn eol)
    {c : α} (hc : c ∈ part) : c ∈ text := by
  induction text generalizing part with
  | nil =>
      rw [List.splitOn_nil, List.mem_singleton] at h
      rwa [h] at hc
  | cons d text ih =>
      rw [List.splitOn_cons_eq_if_modifyHead] at h
      split at h
      · obtain rfl | h := List.mem_cons.mp h
        · cases hc
        · exact List.mem_cons_of_mem d (ih h hc)
      · obtain ⟨first, rest, hparts⟩ :=
          List.exists_cons_of_ne_nil (List.splitOn_ne_nil eol text)
        rw [hparts] at h ih
        obtain rfl | h := List.mem_cons.mp h
        · obtain rfl | hc := List.mem_cons.mp hc
          · exact List.mem_cons_self
          · exact List.mem_cons_of_mem d (ih List.mem_cons_self hc)
        · exact List.mem_cons_of_mem d (ih (List.mem_cons_of_mem first h) hc)

variable {α : Type} [DecidableEq α] {eol : α}

/-- What stands behind the last line end. -/
def lastPart (eol : α) (text : List α) : List α := (text.splitOn eol).getLastD []

theorem dropLast_splitOn_append (eol : α) (text : List α) :
    (text.splitOn eol).dropLast ++ [lastPart eol text] = text.splitOn eol := by
  have hne := List.splitOn_ne_nil eol text
  rw [lastPart, List.getLastD_eq_getLast?, List.getLast?_eq_some_getLast hne, Option.getD_some,
    List.dropLast_append_getLast hne]

/-- The parts of a text that goes on: only the last part can grow. -/
theorem splitOn_append (eol : α) (front back : List α) :
    (front ++ back).splitOn eol =
      (front.splitOn eol).dropLast ++ (lastPart eol front ++ back).splitOn eol := by
  induction front with
  | nil =>
      rw [lastPart, List.splitOn_nil]
      rfl
  | cons c front ih =>
      obtain ⟨first, rest, hparts⟩ := List.exists_cons_of_ne_nil (List.splitOn_ne_nil eol front)
      rw [lastPart] at ih ⊢
      rw [List.cons_append, List.splitOn_cons_eq_if_modifyHead, List.splitOn_cons_eq_if_modifyHead,
        ih, hparts]
      by_cases hc : (c == eol) = true
      · rw [if_pos hc, if_pos hc, List.dropLast_cons_of_ne_nil (List.cons_ne_nil first rest)]
        rfl
      · rw [if_neg hc, if_neg hc]
        cases rest with
        | nil =>
            have hcons := List.splitOn_cons_eq_if_modifyHead (a := eol) c (first ++ back)
            rw [if_neg hc] at hcons
            exact hcons.symm
        | cons second rest => rfl

/-- Splitting takes away line ends only. -/
theorem count_flatten_splitOn {c : α} (h : c ≠ eol) (text : List α) :
    (text.splitOn eol).flatten.count c = text.count c := by
  induction text with
  | nil => rw [List.splitOn_nil, List.flatten_singleton]
  | cons d text ih =>
      rw [List.splitOn_cons_eq_if_modifyHead]
      split
      · next hd =>
          have hne : d ≠ c := fun heq => h (heq.symm.trans (beq_iff_eq.mp hd))
          rw [List.flatten_cons, List.nil_append, ih, List.count_cons_of_ne hne]
      · obtain ⟨first, rest, hparts⟩ := List.exists_cons_of_ne_nil (List.splitOn_ne_nil eol text)
        rw [hparts] at ih ⊢
        rw [List.modifyHead_cons, List.flatten_cons, List.cons_append, List.count_cons,
          List.count_cons, ← List.flatten_cons, ih]

theorem lastPart_append (eol : α) (front back : List α) :
    lastPart eol (front ++ back) = lastPart eol (lastPart eol front ++ back) := by
  rw [lastPart, splitOn_append, ← dropLast_splitOn_append eol (lastPart eol front ++ back),
    ← List.append_assoc, List.getLastD_concat]

theorem not_mem_lastPart (eol : α) (text : List α) : eol ∉ lastPart eol text := by
  have hmem : lastPart eol text ∈ text.splitOn eol := by
    rw [← dropLast_splitOn_append]
    exact List.mem_append_right _ List.mem_cons_self
  exact not_mem_of_mem_splitOn hmem

/-- The lines of a text, of which there is always one. A line end that ends the text starts no
further line. -/
def linesOf (eol : α) (text : List α) : List (List α) :=
  let parts := text.splitOn eol
  if parts.getLast? = some [] ∧ parts.length ≠ 1 then parts.dropLast else parts

theorem linesOf_nil (eol : α) : linesOf eol [] = [[]] := by
  rw [linesOf, List.splitOn_nil]
  exact if_neg fun h => h.2 rfl

theorem linesOf_ne_nil (eol : α) (text : List α) : linesOf eol text ≠ [] := by
  have hparts := List.splitOn_ne_nil eol text
  rw [linesOf]
  split
  · next h =>
      intro hnil
      have hlength := congrArg List.length hnil
      have hpos := List.length_pos_iff.mpr hparts
      rw [List.length_dropLast, List.length_nil] at hlength
      omega
  · exact hparts

theorem mem_splitOn_of_mem_linesOf {text line : List α} (h : line ∈ linesOf eol text) :
    line ∈ text.splitOn eol := by
  rw [linesOf] at h
  split at h
  · exact List.mem_of_mem_dropLast h
  · exact h

theorem linesOf_eq_singleton_iff {text line : List α} :
    linesOf eol text = [line] ↔ eol ∉ line ∧ (text = line ∨ text = line ++ [eol]) := by
  constructor
  · intro h
    have htext : [eol].intercalate (text.splitOn eol) = text := List.intercalate_splitOn eol
    rw [linesOf] at h
    split at h
    · next hended =>
        obtain ⟨hlast, -⟩ := hended
        have hparts : text.splitOn eol = [line, []] := by
          rw [← List.dropLast_append_getLast? [] hlast, h]
          rfl
        have hline : line ∈ text.splitOn eol := by
          rw [hparts]
          exact List.mem_cons_self
        refine ⟨not_mem_of_mem_splitOn hline, .inr ?_⟩
        rw [← htext, hparts]
        simp
    · have hline : line ∈ text.splitOn eol := by
        rw [h]
        exact List.mem_cons_self
      refine ⟨not_mem_of_mem_splitOn hline, .inl ?_⟩
      rw [← htext, h]
      simp
  · rintro ⟨hline, rfl | rfl⟩
    · rw [linesOf, List.splitOn_eq_singleton hline]
      exact if_neg fun h => h.2 rfl
    · rw [linesOf, List.splitOn_append_cons_self_of_not_mem hline, List.splitOn_nil]
      exact if_pos ⟨rfl, Nat.succ_ne_self 1⟩

theorem unlines_splitOn (eol : α) (text : List α) :
    unlines eol (text.splitOn eol) = text ++ [eol] := by
  induction text with
  | nil =>
      rw [List.splitOn_nil]
      rfl
  | cons c text ih =>
      rw [List.splitOn_cons_eq_if_modifyHead]
      split
      · next hc =>
          rw [unlines, List.flatMap_cons, ← unlines, ih, beq_iff_eq.mp hc]
          rfl
      · obtain ⟨first, rest, hparts⟩ := List.exists_cons_of_ne_nil (List.splitOn_ne_nil eol text)
        rw [hparts, unlines, List.flatMap_cons] at ih
        rw [hparts, List.modifyHead_cons, unlines, List.flatMap_cons, List.cons_append,
          List.cons_append, ih, List.cons_append]

theorem lastPart_concat_self (eol : α) (text : List α) : lastPart eol (text ++ [eol]) = [] := by
  rw [lastPart, List.splitOn_append_cons_self, List.splitOn_nil, List.getLastD_concat]

theorem lastPart_concat_of_ne {c : α} (h : c ≠ eol) (text : List α) :
    lastPart eol (text ++ [c]) = lastPart eol text ++ [c] := by
  have hpart : eol ∉ lastPart eol text ++ [c] := by
    rw [List.mem_append, List.mem_singleton, not_or]
    exact ⟨not_mem_lastPart eol text, h.symm⟩
  rw [lastPart_append, lastPart, List.splitOn_eq_singleton hpart]
  rfl

/-- The lines of a text that have ended. -/
def completeLines (eol : α) (text : List α) : List (List α) := (text.splitOn eol).dropLast

theorem completeLines_nil (eol : α) : completeLines eol [] = [] := by
  rw [completeLines, List.splitOn_nil]
  rfl

/-- A line end completes what stands behind the last one. -/
theorem completeLines_concat_self (eol : α) (text : List α) :
    completeLines eol (text ++ [eol]) = completeLines eol text ++ [lastPart eol text] := by
  rw [completeLines, splitOn_append,
    List.splitOn_append_cons_self_of_not_mem (not_mem_lastPart eol text), List.splitOn_nil,
    List.dropLast_append_of_ne_nil (List.cons_ne_nil _ _)]
  rfl

theorem completeLines_concat_of_ne {c : α} (h : c ≠ eol) (text : List α) :
    completeLines eol (text ++ [c]) = completeLines eol text := by
  have hpart : eol ∉ lastPart eol text ++ [c] := by
    rw [List.mem_append, List.mem_singleton, not_or]
    exact ⟨not_mem_lastPart eol text, h.symm⟩
  rw [completeLines, splitOn_append, List.splitOn_eq_singleton hpart, List.dropLast_concat]
  rfl

/-- The lines of a text give the text back, with a line end in any case. -/
theorem unlines_linesOf (eol : α) (text : List α) :
    unlines eol (linesOf eol text) = if text.getLast? = some eol then text else text ++ [eol] := by
  have hparts := dropLast_splitOn_append eol text
  have hlast : (text.splitOn eol).getLast? = some (lastPart eol text) := by
    rw [← hparts, List.getLast?_concat]
  have hlines := unlines_splitOn eol text
  obtain rfl | ⟨front, c, rfl⟩ := text.eq_nil_or_concat
  · rw [linesOf_nil]
    rfl
  · simp only [List.concat_eq_append] at *
    have hend : (front ++ [c]).getLast? = some eol ↔ c = eol := by
      rw [List.getLast?_concat, Option.some.injEq]
    rw [linesOf, hlast]
    by_cases hc : c = eol
    · have hlength : ((front ++ [c]).splitOn eol).length ≠ 1 := by
        have hne := List.length_pos_iff.mpr (List.splitOn_ne_nil eol front)
        rw [hc, List.splitOn_append_cons_self, List.splitOn_nil, List.length_append,
          List.length_singleton]
        omega
      have hempty : lastPart eol (front ++ [c]) = [] := hc ▸ lastPart_concat_self c front
      rw [if_pos ⟨congrArg some hempty, hlength⟩, if_pos (hend.mpr hc)]
      rw [← hparts, hempty, unlines_append] at hlines
      exact List.append_cancel_right hlines
    · have hfull : lastPart eol (front ++ [c]) ≠ [] := by
        rw [lastPart_concat_of_ne hc]
        simp
      rw [if_neg fun h => hfull (Option.some.inj h.1), if_neg fun h => hc (hend.mp h), hlines]

theorem unlines_linesOf_ne_nil (eol : α) (text : List α) : unlines eol (linesOf eol text) ≠ [] := by
  rw [unlines_linesOf]
  split
  · next hlast =>
      intro hnil
      rw [hnil] at hlast
      cases hlast
  · exact List.append_ne_nil_of_right_ne_nil _ (List.cons_ne_nil _ _)

/-- The lines of a text, each with its line end; the last one may have none. -/
def endedLines (eol : α) : List α → List (List α)
  | [] => []
  | c :: text =>
      if c = eol then [c] :: endedLines eol text
      else
        match endedLines eol text with
        | [] => [[c]]
        | line :: lines => (c :: line) :: lines

theorem endedLines_append {front : List α} (h : eol ∉ front) (rest : List α) :
    endedLines eol (front ++ eol :: rest) = (front ++ [eol]) :: endedLines eol rest := by
  induction front with
  | nil => exact if_pos rfl
  | cons c front ih =>
      have hc := List.ne_of_not_mem_cons h
      rw [List.cons_append, endedLines, if_neg hc.symm, ih (List.not_mem_of_not_mem_cons h)]
      rfl

theorem endedLines_unlines {texts : List (List α)} (h : ∀ text ∈ texts, eol ∉ text) :
    endedLines eol (unlines eol texts) = texts.map fun text => text ++ [eol] := by
  induction texts with
  | nil => rfl
  | cons text rest ih =>
      obtain ⟨htext, hrest⟩ := List.forall_mem_cons.mp h
      have hcons : unlines eol (text :: rest) = text ++ eol :: unlines eol rest := by
        rw [unlines, List.flatMap_cons, List.append_assoc]
        rfl
      rw [hcons, endedLines_append htext, ih hrest, List.map_cons]

theorem endedLines_eq_singleton {text : List α} (h : eol ∉ text) (hne : text ≠ []) :
    endedLines eol text = [text] := by
  induction text with
  | nil => exact absurd rfl hne
  | cons c text ih =>
      have hc := List.ne_of_not_mem_cons h
      rw [endedLines, if_neg hc.symm]
      cases text with
      | nil => rfl
      | cons d text => rw [ih (List.not_mem_of_not_mem_cons h) (List.cons_ne_nil d text)]

/-- A text without a line end is the front of the first line, whatever follows it. -/
theorem endedLines_front {front : List α} (h : eol ∉ front) (hne : front ≠ []) (rest : List α) :
    ∃ more lines, endedLines eol (front ++ rest) = (front ++ more) :: lines := by
  induction front with
  | nil => exact absurd rfl hne
  | cons c front ih =>
      have hc := List.ne_of_not_mem_cons h
      rw [List.cons_append, endedLines, if_neg hc.symm]
      cases front with
      | nil =>
          rw [List.nil_append]
          cases endedLines eol rest with
          | nil => exact ⟨[], [], rfl⟩
          | cons line lines => exact ⟨line, lines, rfl⟩
      | cons d front =>
          obtain ⟨more, lines, hlines⟩ :=
            ih (List.not_mem_of_not_mem_cons h) (List.cons_ne_nil d front)
          rw [hlines]
          exact ⟨more, lines, rfl⟩

/-- The same for a text that may end with a line end. -/
theorem endedLines_of_dropLast {front : List α} (h : eol ∉ front.dropLast) (hne : front ≠ [])
    (rest : List α) : ∃ more lines, endedLines eol (front ++ rest) = (front ++ more) :: lines := by
  by_cases hend : eol ∈ front
  · have hfront := List.dropLast_append_getLast hne
    rw [← hfront, List.mem_append, List.mem_singleton] at hend
    obtain hend | hlast := hend
    · exact absurd hend h
    · refine ⟨[], endedLines eol rest, ?_⟩
      rw [← hfront, ← hlast, List.append_nil, List.append_assoc]
      exact endedLines_append h rest
  · exact endedLines_front hend hne rest

/-- The first line of a text ends there, or it is the whole text. -/
theorem endedLines_eq_cons {text line : List α} {lines : List (List α)}
    (h : endedLines eol text = line :: lines) :
    (∃ body rest, line = body ++ [eol] ∧ eol ∉ body ∧ text = body ++ eol :: rest ∧
      lines = endedLines eol rest) ∨
    eol ∉ text ∧ line = text ∧ lines = [] := by
  by_cases hend : eol ∈ text
  · obtain ⟨body, rest, rfl, hbody⟩ := List.eq_append_cons_of_mem hend
    rw [endedLines_append hbody] at h
    obtain ⟨rfl, rfl⟩ := List.cons.inj h
    exact .inl ⟨body, rest, rfl, hbody, rfl, rfl⟩
  · have hne : text ≠ [] := by
      rintro rfl
      cases h
    rw [endedLines_eq_singleton hend hne] at h
    obtain ⟨rfl, rfl⟩ := List.cons.inj h
    exact .inr ⟨hend, rfl, rfl⟩

/-- The other lines are those of the text behind the first line. -/
theorem endedLines_drop {text line : List α} {lines : List (List α)}
    (h : endedLines eol text = line :: lines) : endedLines eol (text.drop line.length) = lines := by
  rcases endedLines_eq_cons h with ⟨body, rest, rfl, -, rfl, rfl⟩ | ⟨-, rfl, rfl⟩
  · have hsplit : body ++ eol :: rest = (body ++ [eol]) ++ rest := by simp
    rw [hsplit, List.drop_left]
  · rw [List.drop_length, endedLines]

theorem flatten_endedLines (text : List α) : (endedLines eol text).flatten = text := by
  induction text with
  | nil => rfl
  | cons c text ih =>
      rw [endedLines]
      split
      · rw [List.flatten_cons, ih]
        rfl
      · cases hlines : endedLines eol text with
        | nil =>
            rw [hlines] at ih
            rw [← ih]
            rfl
        | cons line lines =>
            rw [hlines] at ih
            rw [← ih]
            rfl

end Split

/-- The text without the blanks around it. -/
def strip (blank : α → Bool) (text : List α) : List α := (text.dropWhile blank).rdropWhile blank

section Strip
variable {blank : α → Bool}

/-- A text that does not start or end with a blank. -/
structure Trimmed (blank : α → Bool) (text : List α) : Prop where
  head : ∀ c ∈ text.head?, blank c = false
  last : ∀ c ∈ text.getLast?, blank c = false

theorem rdropWhile_cons_of_neg {c : α} (h : blank c = false) (text : List α) :
    (c :: text).rdropWhile blank = c :: text.rdropWhile blank := by
  induction text using List.reverseRecOn with
  | nil => rw [List.rdropWhile_singleton, if_neg (Bool.not_eq_true _ ▸ h), List.rdropWhile_nil]
  | append_singleton text d ih =>
      rw [← List.cons_append, List.rdropWhile_concat, List.rdropWhile_concat]
      split
      · exact ih
      · rfl

theorem strip_cons_of_neg {c : α} (h : blank c = false) (text : List α) :
    strip blank (c :: text) = c :: text.rdropWhile blank := by
  rw [strip, List.dropWhile_cons_of_neg (Bool.not_eq_true _ ▸ h), rdropWhile_cons_of_neg h]

theorem strip_cons_of_pos {c : α} (h : blank c = true) (text : List α) :
    strip blank (c :: text) = strip blank text := by
  rw [strip, List.dropWhile_cons_of_pos h, strip]

theorem strip_concat_of_pos {c : α} (h : blank c = true) (text : List α) :
    strip blank (text ++ [c]) = strip blank text := by
  induction text with
  | nil => exact strip_cons_of_pos h []
  | cons d text ih =>
      cases hd : blank d with
      | true => rw [List.cons_append, strip_cons_of_pos hd, strip_cons_of_pos hd, ih]
      | false =>
          rw [List.cons_append, strip_cons_of_neg hd, strip_cons_of_neg hd,
            List.rdropWhile_concat_pos blank text c h]

/-- Blanks that are gone at the end already do not matter. -/
theorem strip_rdropWhile (text : List α) :
    strip blank (text.rdropWhile blank) = strip blank text := by
  induction text using List.reverseRecOn with
  | nil => rfl
  | append_singleton text c ih =>
      cases hc : blank c with
      | true => rw [List.rdropWhile_concat_pos blank text c hc, strip_concat_of_pos hc, ih]
      | false => rw [List.rdropWhile_concat_neg blank text c (Bool.not_eq_true _ ▸ hc)]

theorem length_strip_le (text : List α) :
    (strip blank text).length ≤ (text.dropWhile blank).length :=
  (List.rdropWhile_prefix blank _).length_le

theorem count_dropWhile [BEq α] [LawfulBEq α] {c : α} (h : blank c = false) (text : List α) :
    (text.dropWhile blank).count c = text.count c := by
  induction text with
  | nil => rfl
  | cons d text ih =>
      cases hd : blank d with
      | true =>
          have hne : d ≠ c := by
            rintro rfl
            rw [h] at hd
            cases hd
          rw [List.dropWhile_cons_of_pos hd, ih, List.count_cons_of_ne hne]
      | false => rw [List.dropWhile_cons_of_neg (Bool.not_eq_true _ ▸ hd)]

/-- Stripping takes away blanks only. -/
theorem count_strip [BEq α] [LawfulBEq α] {c : α} (h : blank c = false) (text : List α) :
    (strip blank text).count c = text.count c := by
  rw [strip, List.rdropWhile, List.count_reverse, count_dropWhile h, List.count_reverse,
    count_dropWhile h]

theorem strip_eq_self_iff {text : List α} : strip blank text = text ↔ Trimmed blank text := by
  constructor
  · intro h
    have hfront : text.dropWhile blank = text := by
      apply (List.dropWhile_suffix blank).eq_of_length_le
      exact (congrArg List.length h).ge.trans (length_strip_le text)
    rw [strip, hfront] at h
    constructor
    · intro c hc
      cases text with
      | nil => cases hc
      | cons d text =>
          cases hc
          exact Bool.eq_false_iff.2 (List.dropWhile_eq_self_iff.1 hfront (Nat.succ_pos _))
    · intro c hc
      obtain ⟨hne, rfl⟩ := List.mem_getLast?_eq_getLast hc
      exact Bool.eq_false_iff.2 (List.rdropWhile_eq_self_iff.1 h hne)
  · intro h
    cases text with
    | nil => rfl
    | cons c text =>
        rw [strip, List.dropWhile_cons_of_neg (Bool.eq_false_iff.1 (h.head c rfl)),
          List.rdropWhile_eq_self_iff]
        intro hne
        exact Bool.eq_false_iff.1 (h.last _ (List.getLast?_eq_some_getLast hne))

end Strip

/-- A text within one line. -/
structure NoLineEnd (text : List Char) : Prop where
  noReturn : '\r' ∉ text
  noFeed : '\n' ∉ text

theorem NoLineEnd.append {front back : List Char} (h : NoLineEnd front) (hback : NoLineEnd back) :
    NoLineEnd (front ++ back) :=
  ⟨fun hmem => (List.mem_append.mp hmem).elim h.noReturn hback.noReturn,
    fun hmem => (List.mem_append.mp hmem).elim h.noFeed hback.noFeed⟩

theorem NoLineEnd.cons {c : Char} {text : List Char} (hc : c ≠ '\r' ∧ c ≠ '\n')
    (h : NoLineEnd text) : NoLineEnd (c :: text) :=
  ⟨List.not_mem_cons_of_ne_of_not_mem hc.1.symm h.noReturn,
    List.not_mem_cons_of_ne_of_not_mem hc.2.symm h.noFeed⟩

end Library
