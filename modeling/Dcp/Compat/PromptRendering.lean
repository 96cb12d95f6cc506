import Dcp.Compat.CompleteAdapter
import Dcp.Library.Replace

/-!
What rendering a prompt makes of its template. The template is read from left to right into
characters and slots of the supplied arguments; the arguments are substituted one after the other in
the order of the map, in whatever text the earlier ones have left.
-/

namespace Dcp
open Library

namespace PromptTemplate

/-- A part of a template: a character that stands for itself, or the place of an argument. -/
inductive Piece
  | char (c : Char)
  | slot (name : String)
  deriving DecidableEq

def placeholder (name : String) : List Char := ("\x7b\x7b" ++ name ++ "\x7d\x7d").toList

/-- The supplied argument whose placeholder the text begins with; of several the one that ends
first. -/
def slotAt (names : List String) (text : List Char) : Option String :=
  (names.filter fun name => (placeholder name).isPrefixOf text).argmin String.length

/-- Read a template from left to right; the second argument counts the characters of a placeholder
that are still to be skipped. -/
def readPieces (names : List String) : Nat → List Char → List Piece
  | _, [] => []
  | skip + 1, _ :: text => readPieces names skip text
  | 0, c :: text =>
      match slotAt names (c :: text) with
      | some name => .slot name :: readPieces names ((placeholder name).length - 1) text
      | none => .char c :: readPieces names 0 text

def Piece.text (filled : List (String × String)) : Piece → List Char
  | .char c => [c]
  | .slot name => ((filled.lookup name).map String.toList).getD (placeholder name)

def fill (filled : List (String × String)) (pieces : List Piece) : List Char :=
  pieces.flatMap (Piece.text filled)

def pieces (template : PromptTemplate) (args : List (String × String)) : List Piece :=
  readPieces (args.map Prod.fst) 0 template.template.toList

/-- The template with each slot of a supplied argument filled in with its value as given. -/
def literal (template : PromptTemplate) (args : List (String × String)) : String :=
  String.ofList (fill args (template.pieces args))

/-- Where the slots of an argument start in a template that is filled in so far. -/
def slotsFrom (filled : List (String × String)) (name : String) : Nat → List Piece → List Nat
  | _, [] => []
  | offset, piece :: rest =>
      (if piece = .slot name then [offset] else []) ++
        slotsFrom filled name (offset + (piece.text filled).length) rest

/-- When a template filled in so far is searched for a placeholder, it is found at the slots of its
argument, and nothing in the text between them begins another one. -/
def findsSlots (filled : List (String × String)) (name : String) : List Piece → Bool
  | [] => true
  | piece :: rest =>
      (piece = .slot name ||
        noneStartsIn (placeholder name) (piece.text filled) (fill filled rest)) &&
        findsSlots filled name rest

theorem fill_cons (filled : List (String × String)) (piece : Piece) (rest : List Piece) :
    fill filled (piece :: rest) = piece.text filled ++ fill filled rest := rfl

theorem placeholder_ne_nil (name : String) : placeholder name ≠ [] := by
  simp [placeholder]

theorem toList_substitute (text : String) (arg : String × String) :
    (substitute text arg).toList = replaceFrom (placeholder arg.1) arg.2.toList 0 text.toList := by
  rw [substitute, replaceText, String.toList_ofList, placeholder]

theorem placeholder_of_slotAt {names : List String} {text : List Char} {name : String}
    (h : slotAt names text = some name) : placeholder name <+: text := by
  have hmem := List.argmin_mem h
  exact List.isPrefixOf_iff_prefix.mp (List.mem_filter.mp hmem).2

theorem fill_nil_readPieces (names : List String) (skip : Nat) (text : List Char) :
    fill [] (readPieces names skip text) = text.drop skip := by
  fun_induction readPieces names skip text with
  | case1 skip => rw [List.drop_nil]; rfl
  | case2 skip c text ih => exact ih
  | case3 c text name hslot ih =>
      obtain ⟨rest, hrest⟩ := placeholder_of_slotAt hslot
      have hlength := List.length_pos_iff.mpr (placeholder_ne_nil name)
      have hskip : text.drop ((placeholder name).length - 1) = rest := by
        rw [← List.drop_succ_cons (a := c), Nat.sub_add_cancel hlength, ← hrest, List.drop_left]
      rw [fill_cons, ih, hskip]
      exact hrest
  | case4 c text hslot ih => exact congrArg (c :: ·) ih

theorem text_slot_fresh {filled : List (String × String)} {name : String}
    (h : filled.lookup name = none) : Piece.text filled (.slot name) = placeholder name := by
  rw [Piece.text, h]
  rfl

theorem text_slot_last {filled : List (String × String)} {arg : String × String}
    (h : filled.lookup arg.1 = none) :
    Piece.text (filled ++ [arg]) (.slot arg.1) = arg.2.toList := by
  rw [Piece.text, List.lookup_append, h, List.lookup_cons, beq_self_eq_true]
  rfl

theorem text_append_of_ne (filled : List (String × String)) {arg : String × String} {piece : Piece}
    (h : piece ≠ .slot arg.1) : piece.text (filled ++ [arg]) = piece.text filled := by
  cases piece with
  | char c => rfl
  | slot name =>
      have hname : (name == arg.1) = false := beq_eq_false_iff_ne.mpr fun heq => h (heq ▸ rfl)
      rw [Piece.text, Piece.text, List.lookup_append, List.lookup_cons, hname, List.lookup_nil,
        Option.or_none]

/-- Where the search finds the slots only, substituting an argument fills them in. -/
theorem replaceFrom_fill {filled : List (String × String)} {arg : String × String}
    (hfresh : filled.lookup arg.1 = none) {pieces : List Piece}
    (h : findsSlots filled arg.1 pieces = true) :
    replaceFrom (placeholder arg.1) arg.2.toList 0 (fill filled pieces) =
      fill (filled ++ [arg]) pieces := by
  induction pieces with
  | nil => rfl
  | cons piece rest ih =>
      rw [findsSlots, Bool.and_eq_true, Bool.or_eq_true, decide_eq_true_eq] at h
      have hrest := ih h.2
      rw [fill_cons, fill_cons]
      by_cases hslot : piece = .slot arg.1
      · rw [hslot, text_slot_fresh hfresh, text_slot_last hfresh,
          replaceFrom_part (placeholder_ne_nil _), hrest]
      · rw [text_append_of_ne filled hslot, replaceFrom_append _ (h.1.resolve_left hslot),
          hrest]

theorem le_of_mem_slotsFrom {filled : List (String × String)} {name : String} {pieces : List Piece}
    {offset position : Nat} (h : position ∈ slotsFrom filled name offset pieces) :
    offset ≤ position := by
  induction pieces generalizing offset with
  | nil => cases h
  | cons piece rest ih =>
      rw [slotsFrom, List.mem_append] at h
      rcases h with h | h
      · split at h
        · exact (List.mem_singleton.mp h).ge
        · cases h
      · exact (Nat.le_add_right _ _).trans (ih h)

theorem findsSlots_iff {filled : List (String × String)} {name : String}
    (hfresh : filled.lookup name = none) (offset : Nat) (pieces : List Piece) :
    findsSlots filled name pieces = true ↔
      matchesFrom (placeholder name) offset 0 (fill filled pieces) =
        slotsFrom filled name offset pieces := by
  induction pieces generalizing offset with
  | nil => exact iff_of_true rfl rfl
  | cons piece rest ih =>
      rw [findsSlots, Bool.and_eq_true, Bool.or_eq_true, decide_eq_true_eq, slotsFrom,
        fill_cons]
      by_cases hslot : piece = .slot name
      · rw [hslot, text_slot_fresh hfresh, matchesFrom_part (placeholder_ne_nil _), if_pos rfl,
          List.singleton_append, List.cons.injEq, and_iff_right rfl, and_iff_right (.inl rfl)]
        exact ih _
      · rw [if_neg hslot, List.nil_append]
        constructor
        · rintro ⟨hnone, hfinds⟩
          rw [matchesFrom_append _ (hnone.resolve_left hslot)]
          exact (ih _).mp hfinds
        · intro hmatches
          have hnone : noneStartsIn (placeholder name) (piece.text filled) (fill filled rest) =
              true := by
            refine noneStartsIn_of_matches offset fun position hposition => ?_
            rw [hmatches] at hposition
            exact le_of_mem_slotsFrom hposition
          refine ⟨.inr hnone, (ih (offset + (piece.text filled).length)).mpr ?_⟩
          rw [← hmatches]
          exact (matchesFrom_append _ hnone).symm

theorem lookup_eq_none_of_fresh {before : List (String × String)} {arg : String × String}
    (h : ((before ++ [arg]).map Prod.fst).Nodup) : before.lookup arg.1 = none := by
  rw [List.lookup_eq_none_iff]
  intro given hgiven
  rw [List.map_append, List.nodup_append] at h
  have hne := h.2.2 given.1 (List.mem_map_of_mem hgiven) arg.1 (List.mem_singleton.mpr rfl)
  exact bne_iff_ne.mpr hne.symm

/-- The text after some substitutions is the template filled in so far, if each of them found the
slots of its argument. The induction is on the arguments substituted, the last one first. -/
theorem foldl_substitute {template : String} {pieces : List Piece}
    (hpieces : fill [] pieces = template.toList) {before : List (String × String)}
    (hkeys : (before.map Prod.fst).Nodup)
    (h : ∀ initial arg later, before = initial ++ arg :: later →
      (initial.foldl substitute template).toList = fill initial pieces →
      findsSlots initial arg.1 pieces = true) :
    (before.foldl substitute template).toList = fill before pieces := by
  induction before using List.reverseRecOn with
  | nil => exact hpieces.symm
  | append_singleton initial arg ih =>
      have hinitial := ih (hkeys.sublist ((List.sublist_append_left initial [arg]).map Prod.fst))
        fun first other later heq => h first other (later ++ [arg]) (by rw [heq]; simp)
      rw [List.foldl_append, List.foldl_cons, List.foldl_nil, toList_substitute, hinitial]
      exact replaceFrom_fill (lookup_eq_none_of_fresh hkeys) (h initial arg [] rfl hinitial)

def Accepts (template : PromptTemplate) (args : List (String × String)) : Prop :=
  ∃ order text, template.render order args = .ok text

theorem render_of_accepts {template : PromptTemplate} {args : List (String × String)}
    (h : template.Accepts args) (order : MapOrder) :
    template.render order args = .ok ((order.arrange args).foldl substitute template.template) := by
  obtain ⟨order', text, haccepted⟩ := h
  rw [render] at haccepted ⊢
  split at haccepted
  · cases haccepted
  · next hdeclared =>
      rw [if_neg hdeclared]
      split at haccepted
      · cases haccepted
      · rfl

/-- Rendering is literal. Whatever the order of the map, the result is the template with the slots
of the supplied arguments filled in; and the substitution of an argument finds its placeholder at
its own slots and nowhere else, so that no substituted value is expanded again. -/
def RendersLiterally (template : PromptTemplate) (args : List (String × String)) : Prop :=
  ∀ order : MapOrder, template.render order args = .ok (template.literal args) ∧
    ∀ before arg after, order.arrange args = before ++ arg :: after →
      matchesFrom (placeholder arg.1) 0 0 (before.foldl substitute template.template).toList =
        slotsFrom before arg.1 0 (template.pieces args)

/-- With any of the arguments filled in, the placeholder of another begins at its slots only. -/
def SlotsOnly (template : PromptTemplate) (args : List (String × String)) : Prop :=
  ∀ filled arg, (arg :: filled).Subperm args →
    findsSlots filled arg.1 (template.pieces args) = true

theorem lookup_eq_some_iff {args : List (String × String)} (hkeys : (args.map Prod.fst).Nodup)
    {name value : String} : args.lookup name = some value ↔ (name, value) ∈ args := by
  induction args with
  | nil => exact iff_of_false (by simp) List.not_mem_nil
  | cons arg rest ih =>
      obtain ⟨hfresh, hrest⟩ := List.nodup_cons.mp hkeys
      rw [List.lookup_cons, List.mem_cons]
      by_cases hname : name = arg.1
      · subst hname
        have hother : (arg.1, value) ∉ rest := fun hmem =>
          hfresh (List.mem_map.mpr ⟨_, hmem, rfl⟩)
        rw [beq_self_eq_true, or_iff_left hother, Option.some.injEq, Prod.ext_iff,
          and_iff_right rfl, eq_comm]
      · have hne : (name, value) ≠ arg := fun heq => hname (congrArg Prod.fst heq)
        rw [beq_eq_false_iff_ne.mpr hname, or_iff_right hne]
        exact ih hrest

theorem fill_perm {filled args : List (String × String)} (hkeys : (args.map Prod.fst).Nodup)
    (h : filled.Perm args) (pieces : List Piece) : fill filled pieces = fill args pieces := by
  have hlookup : ∀ name, filled.lookup name = args.lookup name := by
    intro name
    have hfilled : (filled.map Prod.fst).Nodup := (h.map Prod.fst).nodup_iff.mpr hkeys
    refine Option.ext fun value => ?_
    rw [lookup_eq_some_iff hfilled, lookup_eq_some_iff hkeys, h.mem_iff]
  refine congrArg (List.flatMap · pieces) (funext fun piece => ?_)
  cases piece with
  | char c => rfl
  | slot name => rw [Piece.text, Piece.text, hlookup]

theorem fill_pieces (template : PromptTemplate) (args : List (String × String)) :
    fill [] (template.pieces args) = template.template.toList :=
  fill_nil_readPieces _ 0 _

theorem exists_order {args front : List (String × String)} (h : front.Subperm args) :
    ∃ (order : MapOrder) (rest : List (String × String)), order.arrange args = front ++ rest := by
  obtain ⟨middle, hperm, hsub⟩ := h
  obtain ⟨rest, hrest⟩ := hsub.exists_perm_append
  have hargs : (front ++ rest).Perm args := ((hperm.symm.append_right rest).trans hrest.symm)
  refine ⟨⟨fun entries => if entries = args then front ++ rest else entries, fun entries => ?_⟩,
    rest, if_pos rfl⟩
  split
  · next heq => exact heq ▸ hargs
  · exact .refl _

theorem nodup_keys_of_subperm {args part : List (String × String)}
    (hkeys : (args.map Prod.fst).Nodup) (h : part.Subperm args) : (part.map Prod.fst).Nodup := by
  obtain ⟨middle, hperm, hsub⟩ := h
  exact (hperm.map Prod.fst).nodup_iff.mp (hkeys.sublist (hsub.map Prod.fst))

theorem concat_sublist (before : List (String × String)) (arg : String × String)
    (after : List (String × String)) : (before ++ [arg]).Sublist (before ++ arg :: after) :=
  ((List.nil_sublist after).cons_cons arg).append_left before

/-- Rendering is literal exactly when, whatever arguments are already filled in, the placeholder of
another one begins at its own slots only. -/
theorem rendersLiterally_iff (template : PromptTemplate) {args : List (String × String)}
    (hkeys : (args.map Prod.fst).Nodup) (haccepts : template.Accepts args) :
    template.RendersLiterally args ↔ template.SlotsOnly args := by
  have hnodup : ∀ {part : List (String × String)}, part.Subperm args →
      (part.map Prod.fst).Nodup := nodup_keys_of_subperm hkeys
  constructor
  · intro h filled arg hsub
    have hfront : (filled ++ [arg]).Subperm args :=
      (List.perm_append_singleton arg filled).subperm.trans hsub
    obtain ⟨order, rest, harrange⟩ := exists_order hfront
    have hmatches := (h order).2
    rw [harrange] at hmatches
    -- each of the arguments before finds its slots, so the text they leave is the filled template
    have hfinds : ∀ initial other later, filled ++ [arg] = initial ++ other :: later →
        (initial.foldl substitute template.template).toList =
          fill initial (template.pieces args) →
        findsSlots initial other.1 (template.pieces args) = true := by
      intro initial other later heq htext
      have hprefix : (initial ++ [other]).Subperm args := by
        refine List.Subperm.trans (List.Sublist.subperm ?_) hfront
        rw [heq]
        exact concat_sublist initial other later
      rw [findsSlots_iff (lookup_eq_none_of_fresh (hnodup hprefix)) 0, ← htext]
      refine hmatches initial other (later ++ rest) ?_
      rw [heq, List.append_assoc, List.cons_append]
    refine hfinds filled arg [] rfl (foldl_substitute (fill_pieces template args) ?_ ?_)
    · exact hnodup ((List.sublist_append_left filled [arg]).subperm.trans hfront)
    · intro initial other later heq
      exact hfinds initial other (later ++ [arg]) (by rw [heq, List.append_assoc, List.cons_append])
  · intro h order
    have hperm := order.perm args
    have hfront : ∀ initial arg later, order.arrange args = initial ++ arg :: later →
        (arg :: initial).Subperm args := by
      intro initial arg later heq
      have hsub : (initial ++ [arg]).Sublist (order.arrange args) := by
        rw [heq]
        exact concat_sublist initial arg later
      exact (List.perm_append_singleton arg initial).symm.subperm.trans
        (hsub.subperm.trans hperm.subperm)
    have htext : ∀ {before after}, order.arrange args = before ++ after →
        (before.foldl substitute template.template).toList =
          fill before (template.pieces args) := by
      intro before after heq
      refine foldl_substitute (fill_pieces template args) (hnodup ?_) ?_
      · exact (heq ▸ List.sublist_append_left before after).subperm.trans hperm.subperm
      · intro initial arg later hbefore _
        refine h initial arg (hfront initial arg (later ++ after) ?_)
        rw [heq, hbefore, List.append_assoc, List.cons_append]
    constructor
    · rw [render_of_accepts haccepts, literal, ← fill_perm hkeys hperm,
        ← htext (List.append_nil _).symm, String.ofList_toList]
    · intro before arg after heq
      have hsub := hfront before arg after heq
      have hfresh := lookup_eq_none_of_fresh
        (hnodup ((List.perm_append_singleton arg before).subperm.trans hsub))
      rw [htext heq]
      exact (findsSlots_iff hfresh 0 _).mp (h before arg hsub)

def helloTemplate : PromptTemplate :=
  ⟨"test", "Test prompt", [⟨"name", "The name", true⟩], "Hello {{name}}!"⟩

/-- The only argument may be given the text of its own placeholder. -/
theorem helloTemplate_rendersLiterally :
    helloTemplate.RendersLiterally [("name", "{{name}}")] := by
  refine (rendersLiterally_iff helloTemplate (by decide) ?_).mpr ?_
  · exact ⟨⟨id, MapOrder.perm_id⟩, "Hello {{name}}!", by decide +kernel⟩
  · intro filled arg hsub
    obtain rfl : filled = [] := List.length_eq_zero_iff.mp (by simpa using hsub.length_le)
    obtain rfl := List.mem_singleton.mp (hsub.subset List.mem_cons_self)
    decide +kernel

def pairTemplate : PromptTemplate :=
  ⟨"pair", "", [⟨"a", "", false⟩, ⟨"b", "", false⟩], "{{a}}{{b}}"⟩

/-- A value that holds the placeholder of another argument is expanded in one order of the map. -/
theorem pairTemplate_render_order :
    pairTemplate.render ⟨id, MapOrder.perm_id⟩ [("a", "{{b}}"), ("b", "x")] = .ok "xx" ∧
      pairTemplate.render ⟨List.reverse, List.reverse_perm⟩
        [("a", "{{b}}"), ("b", "x")] = .ok "{{b}}x" := by
  decide +kernel

end PromptTemplate

end Dcp
