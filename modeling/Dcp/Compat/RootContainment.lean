import Dcp.Compat.Mcp2025
import Dcp.Library.Path

/-!
Which file URIs are within the configured roots. The code resolves the components of a path with
a stack and compares joined texts; here a path leads to a place, and a place is within a root when
it lies below the place of that root.
-/

namespace Dcp
open Library

/-- What a component of a path does. -/
def pathStep (component : List Char) : PathStep (List Char) :=
  if component = [] ∨ component = ['.'] then .stay
  else if component = ['.', '.'] then .up
  else .down component

/-- A path that can be resolved, and the place where it leads. -/
structure Resolves (path : List Char) (place : List (List Char)) : Prop where
  nonempty : path ≠ []
  percent : '%' ∉ path
  backslash : '\\' ∉ path
  climbs : PathStep.NeverClimbs 0 ((path.splitOn '/').map pathStep)
  place : place = PathStep.follow [] ((path.splitOn '/').map pathStep)

/-- A file URI, its path and the place where it leads. -/
structure LeadsTo (uri : String) (path : List Char) (place : List (List Char)) : Prop
    extends Resolves path place where
  spelled : uri.toList = "file://".toList ++ path

theorem startsWithText_iff {s part : String} :
    startsWithText s part = true ↔ ∃ rest, s.toList = part.toList ++ rest := by
  rw [startsWithText, List.isPrefixOf_iff_prefix]
  exact ⟨fun ⟨rest, h⟩ => ⟨rest, h.symm⟩, fun ⟨rest, h⟩ => ⟨rest, h.symm⟩⟩

theorem resolveComponents_eq (parts components : List (List Char)) :
    resolveComponents parts components = (components.map pathStep).foldlM PathStep.move parts := by
  induction components generalizing parts with
  | nil => rfl
  | cons component rest ih =>
      rw [resolveComponents, List.map_cons, List.foldlM_cons, pathStep]
      split
      · exact ih parts
      split
      · rw [PathStep.move]
        split
        · rfl
        · exact ih _
      · exact ih _

theorem normalizeFileUriPath_eq_some_iff {uri text : String} :
    normalizeFileUriPath uri = some text ↔
      ∃ path place, LeadsTo uri path place ∧
        text = String.ofList ('/' :: List.intercalate ['/'] place) := by
  have hstarts : startsWithText uri "file://" = true ↔
      ∃ path, uri.toList = "file://".toList ++ path := startsWithText_iff
  constructor
  · intro h
    simp only [normalizeFileUriPath] at h
    split at h
    · cases h
    · next hspelled =>
        obtain ⟨path, hpath⟩ := hstarts.mp (by simpa using hspelled)
        have hdrop : uri.toList.drop "file://".length = path := by
          rw [hpath]
          exact List.drop_left' rfl
        rw [hdrop] at h
        split at h
        · cases h
        · next hraw =>
            simp only [not_or] at hraw
            rw [resolveComponents_eq, Option.map_eq_some_iff] at h
            obtain ⟨place, hplace, htext⟩ := h
            obtain ⟨hclimbs, hplace⟩ := PathStep.foldlM_move_eq_some_iff.mp hplace
            exact ⟨path, place, ⟨⟨hraw.1, hraw.2.1, hraw.2.2, hclimbs, hplace⟩, hpath⟩, htext.symm⟩
  · rintro ⟨path, place, h, rfl⟩
    have hdrop : uri.toList.drop "file://".length = path := by
      rw [h.spelled]
      exact List.drop_left' rfl
    have hplace : resolveComponents [] (path.splitOn '/') = some place := by
      rw [resolveComponents_eq]
      exact PathStep.foldlM_move_eq_some_iff.mpr ⟨h.climbs, h.place⟩
    simp only [normalizeFileUriPath, hdrop, hplace]
    rw [if_neg (by simpa using hstarts.mpr ⟨path, h.spelled⟩),
      if_neg (by simp [h.nonempty, h.percent, h.backslash])]
    rfl

/-- The names of a place are those of components: they are not empty and have no slash. -/
theorem LeadsTo.names {uri : String} {path : List Char} {place : List (List Char)}
    (h : LeadsTo uri path place) : ∀ name ∈ place, name ≠ [] ∧ '/' ∉ name := by
  intro name hname
  rw [h.place] at hname
  obtain hnil | hstep := PathStep.mem_follow hname
  · cases hnil
  obtain ⟨component, hcomponent, hdown⟩ := List.mem_map.mp hstep
  rw [pathStep] at hdown
  split at hdown
  · cases hdown
  · next hstay =>
      split at hdown
      · cases hdown
      · cases hdown
        exact ⟨fun hnil => hstay (.inl hnil), not_mem_of_mem_splitOn hcomponent⟩

/-- The comparison of texts, as one of lists of characters. -/
theorem isPathWithinRoot_ofList (path root : List Char) :
    isPathWithinRoot (String.ofList path) (String.ofList root) = true ↔
      root = ['/'] ∨ ∃ rest, path = root ++ rest ∧ AtSep '/' rest := by
  have htop : String.ofList root = "/" ↔ root = ['/'] := by
    rw [← String.toList_inj, String.toList_ofList]
    rfl
  have hafter : ∀ rest, (root ++ rest).drop root.length = rest := fun rest => List.drop_left
  simp only [isPathWithinRoot, Bool.or_eq_true, beq_iff_eq, Bool.and_eq_true, startsWithText_iff,
    String.toList_ofList, String.length_ofList, String.ofList_inj, htop, or_assoc]
  refine or_congr_right ⟨?_, ?_⟩
  · rintro (rfl | ⟨⟨rest, rfl⟩, hhead⟩)
    · exact ⟨[], by simp, by simp [AtSep]⟩
    · rw [hafter] at hhead
      refine ⟨rest, rfl, ?_⟩
      intro c hc
      rw [hhead] at hc
      exact (Option.some.inj hc).symm
  · rintro ⟨rest, rfl, hsep⟩
    cases rest with
    | nil => exact .inl (by simp)
    | cons c rest =>
        rw [hafter]
        exact .inr ⟨⟨_, rfl⟩, by rw [hsep c rfl]; rfl⟩

theorem isPathWithinRoot_iff {place root : List (List Char)}
    (hplace : ∀ name ∈ place, name ≠ [] ∧ '/' ∉ name)
    (hroot : ∀ name ∈ root, name ≠ [] ∧ '/' ∉ name) :
    isPathWithinRoot (String.ofList ('/' :: List.intercalate ['/'] place))
      (String.ofList ('/' :: List.intercalate ['/'] root)) = true ↔ root <+: place := by
  rw [isPathWithinRoot_ofList, ← pathText_prefix_iff (fun name hname => (hroot name hname).2)
    (fun name hname => (hplace name hname).2)]
  cases root with
  | nil => exact ⟨fun _ => ⟨_, rfl, atSep_pathText place⟩, fun _ => .inl rfl⟩
  | cons name root =>
      rw [pathText_eq_intercalate (List.cons_ne_nil name root)]
      have hname := (hroot name List.mem_cons_self).1
      have htop : pathText '/' (name :: root) ≠ ['/'] := by
        rw [pathText, List.flatMap_cons]
        simp [hname]
      rw [or_iff_right htop]
      cases place with
      | cons name' place => rw [pathText_eq_intercalate (List.cons_ne_nil name' place)]
      | nil =>
          -- The top is below no other place, although its text is a single separator.
          constructor
          · rintro ⟨rest, htext, -⟩
            simp [pathText, hname] at htext
          · rintro ⟨rest, htext, -⟩
            cases htext

theorem LeadsTo.normalize {uri : String} {path : List Char} {place : List (List Char)}
    (h : LeadsTo uri path place) :
    normalizeFileUriPath uri = some (String.ofList ('/' :: List.intercalate ['/'] place)) :=
  normalizeFileUriPath_eq_some_iff.mpr ⟨path, place, h, rfl⟩

/-- What the code asks of each root. -/
theorem LeadsTo.within {uri : String} {path : List Char} {place : List (List Char)}
    (h : LeadsTo uri path place) (root : Root) :
    (match normalizeFileUriPath root.uri with
      | none => false
      | some rootPath => isPathWithinRoot
          (String.ofList ('/' :: List.intercalate ['/'] place)) rootPath) = true ↔
      ∃ rootPath rootPlace, LeadsTo root.uri rootPath rootPlace ∧ rootPlace <+: place := by
  constructor
  · intro hwithin
    split at hwithin
    · cases hwithin
    · next rootText hroot =>
        obtain ⟨rootPath, rootPlace, hlead, rfl⟩ := normalizeFileUriPath_eq_some_iff.mp hroot
        exact ⟨rootPath, rootPlace, hlead, (isPathWithinRoot_iff h.names hlead.names).mp hwithin⟩
  · rintro ⟨rootPath, rootPlace, hlead, hprefix⟩
    rw [hlead.normalize]
    exact (isPathWithinRoot_iff h.names hlead.names).mpr hprefix

namespace RootsRegistry

theorem allowsUri_nil {uri : String} (h : startsWithText uri "file://" = true) :
    allowsUri [] uri = false := by
  simp [allowsUri, h]

theorem allowsUri_eq_true_iff (roots : List Root) {uri : String}
    (h : startsWithText uri "file://" = true) :
    allowsUri roots uri = true ↔ ∃ path place, LeadsTo uri path place ∧
      ∃ root ∈ roots, ∃ rootPath rootPlace, LeadsTo root.uri rootPath rootPlace ∧
        rootPlace <+: place := by
  by_cases hroots : roots = []
  · simp [hroots, allowsUri_nil h]
  · simp only [allowsUri, h, not_true, if_false, List.isEmpty_iff, hroots]
    constructor
    · intro hallowed
      split at hallowed
      · cases hallowed
      · next uriPath hpath =>
          obtain ⟨path, place, hplace, rfl⟩ := normalizeFileUriPath_eq_some_iff.mp hpath
          obtain ⟨root, hroot, hwithin⟩ := List.any_eq_true.mp hallowed
          exact ⟨path, place, hplace, root, hroot, (hplace.within root).mp hwithin⟩
    · rintro ⟨path, place, hplace, root, hroot, hwithin⟩
      rw [hplace.normalize]
      exact List.any_eq_true.mpr ⟨root, hroot, (hplace.within root).mpr hwithin⟩

/-- A file URI is allowed exactly when it leads to a place within the place of a root. -/
theorem allowsUri_iff (roots : List Root) {uri : String} (h : startsWithText uri "file://" = true) :
    (allowsUri roots uri = true ↔ ∃ path place, LeadsTo uri path place ∧
      ∃ root ∈ roots, ∃ rootPath rootPlace, LeadsTo root.uri rootPath rootPlace ∧
        rootPlace <+: place) ∧
    allowsUri [] uri = false :=
  ⟨allowsUri_eq_true_iff roots h, allowsUri_nil h⟩

/-- A way up and down again within a root that has a slash at its end. -/
theorem allowsUri_iff_home :
    (allowsUri [⟨"file:///home/", none⟩] "file:///home/a/../b" = true ↔
      ∃ path place, LeadsTo "file:///home/a/../b" path place ∧
        ∃ root ∈ [(⟨"file:///home/", none⟩ : Root)], ∃ rootPath rootPlace,
          LeadsTo root.uri rootPath rootPlace ∧ rootPlace <+: place) ∧
    allowsUri [] "file:///home/a/../b" = false :=
  allowsUri_iff _ (by decide)

end RootsRegistry
end Dcp
