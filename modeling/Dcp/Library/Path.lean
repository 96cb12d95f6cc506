import Mathlib.Data.List.Basic
import Mathlib.Tactic

/-!
Paths through a tree: steps that stay, go up or go down to a name, the place they lead to, and
the text of a place, in which every name follows a separator.
-/

namespace Library

inductive PathStep (κ : Type)
  | stay
  | up
  | down (name : κ)

namespace PathStep
variable {κ : Type}

def isUp : PathStep κ → Bool
  | up => true
  | _ => false

def isDown : PathStep κ → Bool
  | down _ => true
  | _ => false

/-- One step, unless it goes above the top. -/
def move (place : List κ) : PathStep κ → Option (List κ)
  | stay => some place
  | up => if place = [] then none else some place.dropLast
  | down name => some (place ++ [name])

def follow (place : List κ) (steps : List (PathStep κ)) : List κ :=
  steps.foldl (fun place step => match step with
    | stay => place
    | up => place.dropLast
    | down name => place ++ [name]) place

/-- From a place of this depth no part of the way goes up more often than it can. -/
def NeverClimbs (depth : Nat) (steps : List (PathStep κ)) : Prop :=
  ∀ front, front <+: steps → front.countP isUp ≤ depth + front.countP isDown

theorem neverClimbs_nil (depth : Nat) : NeverClimbs depth ([] : List (PathStep κ)) := by
  intro front hfront
  rw [List.prefix_nil.mp hfront]
  exact Nat.zero_le _

theorem neverClimbs_cons {depth : Nat} (depth' : Nat) {step : PathStep κ}
    {steps : List (PathStep κ)}
    (h : ∀ ups downs, ups + (if step.isUp then 1 else 0) ≤
        depth + (downs + if step.isDown then 1 else 0) ↔ ups ≤ depth' + downs) :
    NeverClimbs depth (step :: steps) ↔ NeverClimbs depth' steps := by
  constructor
  · intro hclimbs front hfront
    have hstep := hclimbs (step :: front) ((List.prefix_cons_inj step).mpr hfront)
    rw [List.countP_cons, List.countP_cons] at hstep
    exact (h _ _).mp hstep
  · intro hclimbs front hfront
    obtain rfl | ⟨rest, rfl, hrest⟩ := List.prefix_cons_iff.mp hfront
    · exact Nat.zero_le _
    · rw [List.countP_cons, List.countP_cons]
      exact (h _ _).mpr (hclimbs rest hrest)

/-- A way can be followed step by step when it never climbs above the top. -/
theorem foldlM_move_eq_some_iff {place place' : List κ} {steps : List (PathStep κ)} :
    steps.foldlM move place = some place' ↔
      NeverClimbs place.length steps ∧ place' = follow place steps := by
  induction steps generalizing place with
  | nil =>
      simp only [List.foldlM_nil, follow, List.foldl_nil, neverClimbs_nil, true_and]
      exact ⟨fun h => (Option.some.inj h).symm, fun h => congrArg some h.symm⟩
  | cons step steps ih =>
      cases step with
      | stay =>
          rw [neverClimbs_cons place.length (by simp [isUp, isDown])]
          exact ih
      | down name =>
          rw [neverClimbs_cons (place.length + 1) (by simp [isUp, isDown]; omega)]
          refine (@ih (place ++ [name])).trans ?_
          rw [List.length_append, List.length_singleton]
          rfl
      | up =>
          rw [List.foldlM_cons, move]
          split
          · next htop =>
              subst htop
              simp only [Option.bind_eq_bind, Option.bind_none, reduceCtorEq, false_iff, not_and]
              intro hclimbs
              exact absurd (hclimbs [up] (by simp)) (by simp [isUp, isDown])
          · next hbelow =>
              have hdepth := List.length_pos_iff.mpr hbelow
              rw [neverClimbs_cons (place.length - 1) (by simp [isUp, isDown]; omega)]
              refine (@ih place.dropLast).trans ?_
              rw [List.length_dropLast]
              rfl

/-- The names of a place come from where the way started and from its steps. -/
theorem mem_follow {place : List κ} {steps : List (PathStep κ)} {name : κ}
    (h : name ∈ follow place steps) : name ∈ place ∨ down name ∈ steps := by
  induction steps generalizing place with
  | nil => exact .inl h
  | cons step steps ih =>
      obtain hplace | hsteps := ih h
      · cases step with
        | stay => exact .inl hplace
        | up => exact .inl (List.mem_of_mem_dropLast hplace)
        | down name' =>
            obtain hplace | hname := List.mem_append.mp hplace
            · exact .inl hplace
            · exact .inr (List.mem_singleton.mp hname ▸ List.mem_cons_self)
      · exact .inr (List.mem_cons_of_mem step hsteps)

end PathStep

/-- The text of a place, every name after a separator. -/
def pathText {α : Type} (sep : α) (place : List (List α)) : List α :=
  place.flatMap fun name => sep :: name

def AtSep {α : Type} (sep : α) (text : List α) : Prop := ∀ c, text.head? = some c → c = sep

section
variable {α : Type} {sep : α}

theorem atSep_pathText (place : List (List α)) : AtSep sep (pathText sep place) := by
  intro c hc
  cases place with
  | nil => cases hc
  | cons name rest =>
      cases hc
      rfl

theorem not_mem_of_mem_splitOn [BEq α] [LawfulBEq α] {text part : List α}
    (h : part ∈ text.splitOn sep) : sep ∉ part := by
  induction text generalizing part with
  | nil =>
      rw [List.splitOn_nil] at h
      rw [List.mem_singleton.mp h]
      exact List.not_mem_nil
  | cons c text ih =>
      rw [List.splitOn_cons_eq_if_modifyHead] at h
      split at h
      · obtain rfl | h := List.mem_cons.mp h
        · exact List.not_mem_nil
        · exact ih h
      · next hc =>
          cases hparts : text.splitOn sep with
          | nil => exact absurd hparts (by simp)
          | cons first rest =>
              rw [hparts] at h ih
              obtain rfl | h := List.mem_cons.mp h
              · intro hmem
                obtain rfl | hmem := List.mem_cons.mp hmem
                · exact hc (by simp)
                · exact ih List.mem_cons_self hmem
              · exact ih (List.mem_cons_of_mem first h)

theorem pathText_eq_intercalate {place : List (List α)} (h : place ≠ []) :
    sep :: List.intercalate [sep] place = pathText sep place := by
  induction place with
  | nil => exact absurd rfl h
  | cons name rest ih =>
      cases rest with
      | nil => simp [pathText]
      | cons name' rest =>
          have hrest := ih (List.cons_ne_nil name' rest)
          rw [List.intercalate_cons_cons, pathText, List.flatMap_cons]
          rw [pathText] at hrest
          rw [← hrest]
          simp

theorem name_unique {name name' text text' : List α} (hname : sep ∉ name) (hname' : sep ∉ name')
    (htext : AtSep sep text) (htext' : AtSep sep text') (h : name ++ text = name' ++ text') :
    name = name' ∧ text = text' := by
  induction name generalizing name' with
  | nil =>
      cases name' with
      | nil => exact ⟨rfl, h⟩
      | cons c rest =>
          have hc := htext c (by rw [List.nil_append] at h; rw [h]; rfl)
          exact absurd (hc ▸ List.mem_cons_self) hname'
  | cons c name ih =>
      cases name' with
      | nil =>
          have hc := htext' c (by rw [List.nil_append] at h; rw [← h]; rfl)
          exact absurd (hc ▸ List.mem_cons_self) hname
      | cons c' name' =>
          rw [List.cons_append, List.cons_append, List.cons.injEq] at h
          obtain ⟨hsame, hrest⟩ := ih (fun hmem => hname (List.mem_cons_of_mem c hmem))
            (fun hmem => hname' (List.mem_cons_of_mem c' hmem)) h.2
          exact ⟨by rw [h.1, hsame], hrest⟩

/-- The text of a place starts with that of another one, up to a separator, when the place is
below the other one. -/
theorem pathText_prefix_iff {root place : List (List α)} (hroot : ∀ name ∈ root, sep ∉ name)
    (hplace : ∀ name ∈ place, sep ∉ name) :
    (∃ rest, pathText sep place = pathText sep root ++ rest ∧ AtSep sep rest) ↔
      root <+: place := by
  constructor
  · rintro ⟨rest, htext, hrest⟩
    induction root generalizing place with
    | nil => exact List.nil_prefix
    | cons name root ih =>
        have hroot' := fun name' hname' => hroot name' (List.mem_cons_of_mem name hname')
        cases place with
        | nil => cases htext
        | cons name' place =>
            have hplace' := fun name' hname' => hplace name' (List.mem_cons_of_mem _ hname')
            simp only [pathText, List.flatMap_cons, List.cons_append, List.append_assoc,
              List.cons.injEq, true_and] at htext
            have hfollow : AtSep sep (pathText sep root ++ rest) := by
              cases root with
              | nil => exact hrest
              | cons _ _ =>
                  intro c hc
                  cases hc
                  rfl
            obtain ⟨rfl, hrests⟩ := name_unique (hplace _ List.mem_cons_self)
              (hroot _ List.mem_cons_self) (atSep_pathText place) hfollow htext
            exact (List.prefix_cons_inj _).mpr (ih hroot' hplace' hrests)
  · rintro ⟨below, rfl⟩
    exact ⟨pathText sep below, List.flatMap_append, atSep_pathText below⟩

end

end Library
