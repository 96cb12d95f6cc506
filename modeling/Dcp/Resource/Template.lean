import Dcp.Library.Wildcard
import Dcp.Resource

/-!
Which URIs a template accepts. A template is a sequence of literals and placeholders, and a URI
fits it when it is the template with a text for each placeholder. The code looks for each literal
where it occurs first, the last one too, so that it stops short when the last literal occurs before
the end of the URI already.
-/

namespace Dcp
open Library

/-- A piece of a template: a text that stands for itself, or a named placeholder. -/
inductive Segment
  | literal (text : List Char) (nonempty : text ≠ []) (plain : '\x7b' ∉ text)
  | placeholder (name : List Char) (closed : '\x7d' ∉ name)

namespace Segment

def isLiteral : Segment → Bool
  | literal .. => true
  | placeholder .. => false

def toText : Segment → List Char
  | literal text _ _ => text
  | placeholder name _ => '\x7b' :: (name ++ ['\x7d'])

def template (segments : List Segment) : List Char := segments.flatMap toText

theorem template_cons (segment : Segment) (rest : List Segment) :
    template (segment :: rest) = segment.toText ++ template rest := List.flatMap_cons

def endsInLiteral (segments : List Segment) : Bool := segments.getLast?.any isLiteral

/-- The URI is the template with these values for its placeholders. -/
inductive Fits : List Segment → List (List Char) → List Char → Prop
  | nil : Fits [] [] []
  | literal {segments : List Segment} {values : List (List Char)} {uri : List Char}
      {text : List Char} {nonempty : text ≠ []} {plain : '\x7b' ∉ text}
      (h : Fits segments values uri) :
      Fits (.literal text nonempty plain :: segments) values (text ++ uri)
  | placeholder {segments : List Segment} {values : List (List Char)} {uri : List Char}
      {name : List Char} {closed : '\x7d' ∉ name} (value : List Char)
      (h : Fits segments values uri) :
      Fits (.placeholder name closed :: segments) (value :: values) (value ++ uri)

def Generates (segments : List Segment) (uri : List Char) : Prop :=
  ∃ values, Fits segments values uri

def Shortest (segments : List Segment) (uri : List Char) : Prop :=
  ∀ front, front <+: uri → Generates segments front → front = uri

/-- The literal text before the first placeholder, and that after each placeholder. -/
def parts : List Segment → List Char × List (List Char)
  | [] => ([], [])
  | literal text _ _ :: rest => (text ++ (parts rest).1, (parts rest).2)
  | placeholder _ _ :: rest => ([], (parts rest).1 :: (parts rest).2)

theorem length_parts_le (segments : List Segment) :
    (parts segments).2.length ≤ (template segments).length := by
  induction segments with
  | nil => exact Nat.le_refl _
  | cons segment rest ih =>
      rw [template_cons, List.length_append]
      cases segment with
      | literal text _ _ => exact Nat.le_add_left_of_le ih
      | placeholder name _ =>
          simp only [parts, List.length_cons, toText, List.length_append]
          omega

theorem templateParts_template {segments : List Segment} {front : List Char} {fuel : Nat}
    (hfront : '\x7b' ∉ front) (hfuel : (parts segments).2.length ≤ fuel) :
    templateParts fuel (front ++ template segments) =
      (front ++ (parts segments).1) :: (parts segments).2 := by
  induction segments generalizing front fuel with
  | nil =>
      rw [template, List.flatMap_nil, parts, List.append_nil]
      cases fuel with
      | zero => rfl
      | succ fuel => rw [templateParts, splitOnce_eq_none hfront]
  | cons segment rest ih =>
      cases segment with
      | literal text nonempty plain =>
          have hboth : '\x7b' ∉ front ++ text := by simp [hfront, plain]
          have hrest := ih hboth hfuel
          rw [List.append_assoc] at hrest
          rw [parts, ← List.append_assoc, ← hrest]
          rfl
      | placeholder name closed =>
          rw [parts, List.length_cons] at hfuel
          obtain ⟨fuel, rfl⟩ : ∃ n, fuel = n + 1 := ⟨fuel - 1, by omega⟩
          have htemplate : front ++ template (placeholder name closed :: rest) =
              front ++ '\x7b' :: (name ++ '\x7d' :: template rest) := by
            simp [template, toText]
          rw [htemplate, templateParts, splitOnce_append hfront]
          simp only [splitOnce_append closed, parts, List.append_nil]
          rw [← List.nil_append (template rest), ih List.not_mem_nil (by omega), List.nil_append]

theorem generates_iff (segments : List Segment) (uri : List Char) :
    Generates segments uri ↔
      ∃ text, uri = (parts segments).1 ++ text ∧ Skips (parts segments).2 text [] := by
  induction segments generalizing uri with
  | nil =>
      constructor
      · rintro ⟨values, h⟩
        cases h
        exact ⟨[], rfl, .nil []⟩
      · rintro ⟨text, rfl, h⟩
        cases h
        exact ⟨[], .nil⟩
  | cons segment rest ih =>
      cases segment with
      | literal text nonempty plain =>
          constructor
          · rintro ⟨values, h⟩
            cases h with
            | literal h =>
                obtain ⟨left, rfl, hskips⟩ := (ih _).mp ⟨values, h⟩
                exact ⟨left, (List.append_assoc _ _ _).symm, hskips⟩
          · rintro ⟨left, rfl, hskips⟩
            obtain ⟨values, h⟩ := (ih _).mpr ⟨left, rfl, hskips⟩
            rw [parts, List.append_assoc]
            exact ⟨values, .literal h⟩
      | placeholder name closed =>
          constructor
          · rintro ⟨values, h⟩
            cases h with
            | placeholder value h =>
                obtain ⟨left, rfl, hskips⟩ := (ih _).mp ⟨_, h⟩
                refine ⟨value ++ (parts rest).1 ++ left, ?_, .cons value hskips⟩
                rw [parts, List.nil_append, List.append_assoc]
          · rintro ⟨text, rfl, hskips⟩
            cases hskips with
            | cons gap hskips =>
                obtain ⟨values, h⟩ := (ih _).mpr ⟨_, rfl, hskips⟩
                rw [List.append_assoc]
                exact ⟨gap :: values, .placeholder gap h⟩

end Segment

/-- The search for parts that occur with gaps finds them and leaves the most of the text. -/
theorem exists_matchParts {parts : List (List Char)} {text rest text' : List Char}
    (h : Skips parts text rest) (hsuffix : text <:+ text') :
    ∃ rest', matchParts false parts text' = some rest' ∧ rest <:+ rest' := by
  induction h generalizing text' with
  | nil rest => exact ⟨text', by rw [matchParts], hsuffix⟩
  | @cons part parts text rest gap h ih =>
      cases part with
      | nil =>
          rw [matchParts]
          exact ih ((List.suffix_append _ text).trans hsuffix)
      | cons c part =>
          obtain ⟨front, rfl⟩ := hsuffix
          obtain ⟨before, after, hfound, hafter⟩ :=
            findText_gap (List.cons_ne_nil c part) (front ++ gap) text
          have htext : front ++ (gap ++ c :: part ++ text) = front ++ gap ++ c :: part ++ text := by
            simp
          rw [htext, matchParts, hfound]
          simpa using ih hafter
          simp

theorem skips_of_matchParts {parts : List (List Char)} {text rest : List Char}
    (h : matchParts false parts text = some rest) : Skips parts text rest := by
  induction parts generalizing text with
  | nil =>
      rw [matchParts] at h
      cases h
      exact .nil _
  | cons part parts ih =>
      cases part with
      | nil =>
          rw [matchParts] at h
          exact .cons [] (ih h)
      | cons c part =>
          rw [matchParts] at h
          · split at h
            · cases h
            · next before after hfound =>
                rw [if_neg (by simp)] at h
                rw [findText_eq_some hfound]
                exact .cons before (ih h)
          · simp

theorem matchParts_first {first : List Char} {parts : List (List Char)} {uri rest : List Char} :
    matchParts true (first :: parts) uri = some rest ↔
      ∃ text, uri = first ++ text ∧ matchParts false parts text = some rest := by
  cases first with
  | nil =>
      rw [matchParts]
      exact ⟨fun h => ⟨uri, rfl, h⟩, fun ⟨_, huri, h⟩ => huri ▸ h⟩
  | cons c first =>
      rw [matchParts]
      · constructor
        · intro h
          split at h
          · cases h
          · next before after hfound =>
              split at h
              · cases h
              · next hstart =>
                  have hbefore : before = [] := by simpa using hstart
                  subst hbefore
                  exact ⟨after, findText_eq_some hfound, h⟩
        · rintro ⟨text, rfl, h⟩
          rw [findText_front (List.cons_ne_nil c first)]
          simpa using h
      · simp

namespace Segment

theorem endsInLiteral_cons (segment : Segment) {rest : List Segment} (h : rest ≠ []) :
    endsInLiteral (segment :: rest) = endsInLiteral rest := by
  rw [endsInLiteral, endsInLiteral, List.getLast?_cons_of_ne_nil h]

theorem getLast_parts_of_literal {segments : List Segment} (h : endsInLiteral segments = true) :
    ∃ c text, ((parts segments).1 :: (parts segments).2).getLast? = some (c :: text) := by
  induction segments with
  | nil => cases h
  | cons segment rest ih =>
      by_cases hrest : rest = []
      · subst hrest
        cases segment with
        | placeholder => cases h
        | literal text nonempty plain =>
            obtain ⟨c, text, rfl⟩ := List.exists_cons_of_ne_nil nonempty
            exact ⟨c, text, by simp [parts]⟩
      · rw [endsInLiteral_cons _ hrest] at h
        obtain ⟨c, text, hlast⟩ := ih h
        cases segment with
        | placeholder => exact ⟨c, text, by rw [parts, List.getLast?_cons_cons, hlast]⟩
        | literal front nonempty plain =>
            rw [parts]
            cases hparts : (parts rest).2 with
            | nil =>
                rw [hparts] at hlast
                have hfirst : (parts rest).1 = c :: text := by simpa using hlast
                obtain ⟨d, front, rfl⟩ := List.exists_cons_of_ne_nil nonempty
                exact ⟨d, front ++ c :: text, by simp [hfirst]⟩
            | cons part others =>
                rw [hparts, List.getLast?_cons_cons] at hlast
                exact ⟨c, text, by rw [List.getLast?_cons_cons, hlast]⟩

theorem parts_of_placeholder {segments : List Segment} (hne : segments ≠ [])
    (h : endsInLiteral segments = false) : ∃ others, (parts segments).2 = others ++ [[]] := by
  induction segments with
  | nil => exact absurd rfl hne
  | cons segment rest ih =>
      by_cases hrest : rest = []
      · subst hrest
        cases segment with
        | placeholder => exact ⟨[], rfl⟩
        | literal => cases h
      · rw [endsInLiteral_cons _ hrest] at h
        obtain ⟨others, hothers⟩ := ih hrest h
        cases segment with
        | placeholder => exact ⟨(parts rest).1 :: others, by rw [parts, hothers]; rfl⟩
        | literal => exact ⟨others, hothers⟩

/-- A search that leaves nothing has found the shortest front that fits. -/
theorem shortest_iff {segments : List Segment} {text rest : List Char}
    (h : matchParts false (parts segments).2 text = some rest) :
    rest = [] ↔ Generates segments ((parts segments).1 ++ text) ∧
      Shortest segments ((parts segments).1 ++ text) := by
  have hskips := skips_of_matchParts h
  constructor
  · rintro rfl
    refine ⟨(generates_iff _ _).mpr ⟨text, rfl, hskips⟩, ?_⟩
    intro front hfront hgenerates
    obtain ⟨text', rfl, hskips'⟩ := (generates_iff _ _).mp hgenerates
    obtain ⟨tail, rfl⟩ := (List.prefix_append_right_inj _).mp hfront
    obtain ⟨front', htext', hleft⟩ := hskips'.front
    rw [List.append_nil] at htext'
    subst htext'
    obtain ⟨rest', hmatch, hsuffix⟩ := exists_matchParts (hleft tail) List.suffix_rfl
    rw [h] at hmatch
    cases hmatch
    rw [List.suffix_nil.mp hsuffix, List.append_nil]
  · rintro ⟨-, hshortest⟩
    obtain ⟨front, rfl, hleft⟩ := hskips.front
    have hfront := hleft []
    rw [List.append_nil] at hfront
    have hsame := hshortest ((parts segments).1 ++ front) ⟨rest, by rw [List.append_assoc]⟩
      ((generates_iff _ _).mpr ⟨front, rfl, hfront⟩)
    simpa using hsame

theorem uriMatchesTemplate_iff (segments : List Segment) (uri : String) :
    uriMatchesTemplate uri (String.ofList (template segments)) = true ↔
      segments = [] ∨ (Generates segments uri.toList ∧
        (endsInLiteral segments = true → Shortest segments uri.toList)) := by
  have hparts := @templateParts_template segments [] _ List.not_mem_nil (length_parts_le segments)
  rw [List.nil_append, List.nil_append] at hparts
  rw [uriMatchesTemplate, String.toList_ofList, String.length_ofList, hparts]
  by_cases hempty : segments = []
  · subst hempty
    simp [parts, matchParts]
  rw [or_iff_right hempty]
  cases hmatch : matchParts true ((parts segments).1 :: (parts segments).2) uri.toList with
  | none =>
      constructor
      · intro h
        cases h
      · rintro ⟨hgenerates, -⟩
        obtain ⟨text, huri, hskips⟩ := (generates_iff _ _).mp hgenerates
        obtain ⟨rest, hrest, -⟩ := exists_matchParts hskips List.suffix_rfl
        rw [matchParts_first.mpr ⟨text, huri, hrest⟩] at hmatch
        cases hmatch
  | some rest =>
      obtain ⟨text, huri, hrest⟩ := matchParts_first.mp hmatch
      rw [huri]
      cases hends : endsInLiteral segments with
      | true =>
          obtain ⟨c, last, hlast⟩ := getLast_parts_of_literal hends
          simp only [hlast, List.isEmpty_iff, shortest_iff hrest, true_implies]
      | false =>
          obtain ⟨others, hothers⟩ := parts_of_placeholder hempty hends
          have hgenerates : Generates segments ((parts segments).1 ++ text) := by
            refine (generates_iff _ _).mpr ⟨text, rfl, ?_⟩
            have hskips := skips_of_matchParts hrest
            rw [hothers] at hskips ⊢
            obtain ⟨left, hleft, -⟩ := Skips.append_empty_iff.mp hskips
            exact Skips.append_empty_iff.mpr ⟨left, hleft, List.nil_suffix⟩
          have hlast : ((parts segments).1 :: (parts segments).2).getLast? = some [] := by
            rw [hothers, ← List.cons_append, List.getLast?_concat]
          simp [hlast, hgenerates]

/-- The decision of the code is that of the template language unless the template is empty, or it
ends in a literal and a proper front of the URI fits already. -/
theorem uriMatchesTemplate_exact_iff (segments : List Segment) (uri : String) :
    (uriMatchesTemplate uri (String.ofList (template segments)) = true ↔
        Generates segments uri.toList) ↔
      (segments = [] → uri = "") ∧
        (endsInLiteral segments = true → Generates segments uri.toList →
          Shortest segments uri.toList) := by
  rw [uriMatchesTemplate_iff]
  by_cases hempty : segments = []
  · subst hempty
    have hgenerates : Generates [] uri.toList ↔ uri = "" := by
      rw [← String.toList_eq_nil_iff, generates_iff]
      constructor
      · rintro ⟨text, huri, hskips⟩
        cases hskips
        exact huri
      · exact fun huri => ⟨[], huri, .nil []⟩
    simp [hgenerates, endsInLiteral]
  · simp only [hempty, false_or, false_implies, true_and]
    tauto

/-- With an `a` for its placeholder, "{x}a" is "aa", but the code stops at the first "a". -/
theorem uriMatchesTemplate_not_exact :
    ¬ (uriMatchesTemplate "aa" (String.ofList (template
          [placeholder ['x'] (by decide), literal ['a'] (by decide) (by decide)])) = true ↔
      Generates [placeholder ['x'] (by decide), literal ['a'] (by decide) (by decide)]
        "aa".toList) := by
  intro h
  have hrefused : uriMatchesTemplate "aa" (String.ofList (template
      [placeholder ['x'] (by decide), literal ['a'] (by decide) (by decide)])) = false := by
    decide
  rw [hrefused] at h
  exact Bool.false_ne_true (h.mpr ⟨[['a']], .placeholder ['a'] (.literal .nil)⟩)

end Segment
end Dcp
