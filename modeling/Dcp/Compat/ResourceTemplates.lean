import Mathlib.Data.List.TakeWhile
import Dcp.Compat.Mcp2025
import Dcp.Resource.Template

/-!
The second matcher of URI templates, which also gives the values of the placeholders. It goes
through the URI once and ends a value before the first character that is the next one of the
template, so that it reads a URI only when no value contains the character that ends it. After a
placeholder that another one follows, that character is the brace.
-/

namespace Dcp
open Library

structure TemplateParam where
  name : String
  value : String
  deriving DecidableEq

namespace ResourceTemplateRegistry

/-- The values of the placeholders of the template in the URI. The name of a placeholder that is
never closed is what is left of the template. -/
def extractFrom : Nat → List Char → List Char → Option (List TemplateParam)
  | _, [], uri => if uri.isEmpty then some [] else none
  | 0, _, _ => none
  | fuel + 1, tc :: template, uri =>
      if tc = '\x7b' then
        let (name, template) := (splitOnce '\x7d' template).getD (template, [])
        let inValue := fun uc => some uc != template.head?
        (extractFrom fuel template (uri.dropWhile inValue)).map fun params =>
          if name.isEmpty then params
          else ⟨String.ofList name, String.ofList (uri.takeWhile inValue)⟩ :: params
      else if uri.head? = some tc then extractFrom fuel template uri.tail
      else none

def extractParams (uri template : String) : Option (List TemplateParam) :=
  extractFrom template.length template.toList uri.toList

/-- The first template that the URI can be read with. -/
def matchUri (templates : List ResourceTemplate) (uri : String) :
    Option (ResourceTemplate × List TemplateParam) :=
  templates.findSome? fun template =>
    (extractParams uri template.uriTemplate).map fun params => (template, params)

end ResourceTemplateRegistry

namespace Segment
open ResourceTemplateRegistry

def Named : Segment → Prop
  | literal .. => True
  | placeholder name _ => name ≠ []

/-- The names of the placeholders. -/
def names : List Segment → List (List Char)
  | [] => []
  | literal .. :: rest => names rest
  | placeholder name _ :: rest => name :: names rest

/-- The placeholders with their values. -/
def params : List Segment → List (List Char) → List TemplateParam
  | literal .. :: rest, values => params rest values
  | placeholder name _ :: rest, value :: values =>
      ⟨String.ofList name, String.ofList value⟩ :: params rest values
  | _, _ => []

/-- The URI fits the template with these values, none of which contains the character that comes
after its placeholder; that character is also what comes after the value, unless the URI ends. -/
inductive Stops : List Segment → List (List Char) → List Char → Prop
  | nil : Stops [] [] []
  | literal {segments : List Segment} {values : List (List Char)} {uri : List Char}
      {text : List Char} {nonempty : text ≠ []} {plain : '\x7b' ∉ text}
      (h : Stops segments values uri) :
      Stops (.literal text nonempty plain :: segments) values (text ++ uri)
  | placeholder {segments : List Segment} {values : List (List Char)} {uri : List Char}
      {name : List Char} {closed : '\x7d' ∉ name} (value : List Char)
      (hvalue : ∀ c ∈ value, some c ≠ (template segments).head?)
      (hnext : ∀ c ∈ uri.head?, some c = (template segments).head?)
      (h : Stops segments values uri) :
      Stops (.placeholder name closed :: segments) (value :: values) (value ++ uri)

/-- Some placeholder comes right after another one. -/
def adjacent : List Segment → Bool
  | placeholder _ _ :: placeholder _ _ :: _ => true
  | _ :: rest => adjacent rest
  | [] => false

section
variable {segments : List Segment} {values : List (List Char)} {uri : List Char}

theorem Stops.fits (h : Stops segments values uri) : Fits segments values uri := by
  induction h with
  | nil => exact .nil
  | literal _ ih => exact .literal ih
  | placeholder value _ _ _ ih => exact .placeholder value ih

theorem Fits.params_name (h : Fits segments values uri) :
    (params segments values).map (fun param => param.name.toList) = names segments := by
  induction h with
  | nil => rfl
  | literal _ ih => rw [params, names, ih]
  | placeholder value _ ih => rw [params, names, List.map_cons, ih, String.toList_ofList]

theorem Fits.params_value (h : Fits segments values uri) :
    (params segments values).map (fun param => param.value.toList) = values := by
  induction h with
  | nil => rfl
  | literal _ ih => rw [params, ih]
  | placeholder value _ ih => rw [params, List.map_cons, ih, String.toList_ofList]

end

end Segment

namespace ResourceTemplateRegistry

variable {template uri : List Char} {fuel : Nat} {params : List TemplateParam}

theorem extractFrom_literal {text : List Char} (hplain : '\x7b' ∉ text) :
    extractFrom (text.length + fuel) (text ++ template) uri = some params ↔
      ∃ rest, uri = text ++ rest ∧ extractFrom fuel template rest = some params := by
  induction text generalizing uri with
  | nil => simp
  | cons tc text ih =>
      have hbrace : tc ≠ '\x7b' := fun heq => hplain (heq ▸ List.mem_cons_self)
      have hfuel : (tc :: text).length + fuel = text.length + fuel + 1 := by
        rw [List.length_cons]
        omega
      rw [hfuel, List.cons_append, extractFrom, if_neg hbrace]
      cases uri with
      | nil => simp
      | cons uc uri =>
          by_cases heq : uc = tc
          · subst heq
            rw [List.head?_cons, if_pos rfl, List.tail_cons,
              ih fun hmem => hplain (List.mem_cons_of_mem _ hmem)]
            simp
          · simp [heq]

theorem extractFrom_placeholder {name : List Char} (hclosed : '\x7d' ∉ name) (hname : name ≠ []) :
    extractFrom (fuel + 1) ('\x7b' :: (name ++ '\x7d' :: template)) uri = some params ↔
      ∃ value rest others, uri = value ++ rest ∧ (∀ c ∈ value, some c ≠ template.head?) ∧
        (∀ c ∈ rest.head?, some c = template.head?) ∧
        extractFrom fuel template rest = some others ∧
        params = ⟨String.ofList name, String.ofList value⟩ :: others := by
  rw [extractFrom, if_pos rfl, splitOnce_append hclosed]
  simp only [Option.getD_some, List.isEmpty_iff, hname, if_false, Option.map_eq_some_iff]
  constructor
  · rintro ⟨others, hothers, rfl⟩
    refine ⟨_, _, others, List.takeWhile_append_dropWhile.symm, ?_, ?_, hothers, rfl⟩
    · intro c hc
      simpa using List.mem_takeWhile_imp hc
    · intro c hc
      have hstop := List.head?_dropWhile_not (fun uc => some uc != template.head?) uri
      rw [hc] at hstop
      simpa using hstop
  · rintro ⟨value, rest, others, rfl, hvalue, hnext, hothers, rfl⟩
    have hall : ∀ c ∈ value, (some c != template.head?) = true := by simpa using hvalue
    rw [List.dropWhile_append_of_pos hall, List.takeWhile_append_of_pos hall]
    cases rest with
    | nil => exact ⟨others, hothers, by simp⟩
    | cons c rest =>
        have hc : some c = template.head? := hnext c rfl
        exact ⟨others, by simpa [hc] using hothers, by simp [hc]⟩

end ResourceTemplateRegistry

namespace Segment
open ResourceTemplateRegistry
variable {segments : List Segment} {values : List (List Char)} {uri : List Char}

/-- The code reads a URI with the values that stop where it stops. -/
theorem extractFrom_template (hnamed : ∀ segment ∈ segments, segment.Named) {fuel : Nat}
    (hfuel : (template segments).length ≤ fuel) {found : List TemplateParam} :
    extractFrom fuel (template segments) uri = some found ↔
      ∃ values, Stops segments values uri ∧ found = params segments values := by
  induction segments generalizing uri fuel found with
  | nil =>
      rw [template, List.flatMap_nil, extractFrom]
      constructor
      · intro h
        split at h
        · next hempty =>
            cases h
            rw [List.isEmpty_iff.mp hempty]
            exact ⟨[], .nil, rfl⟩
        · cases h
      · rintro ⟨values, h, rfl⟩
        cases h
        rfl
  | cons segment rest ih =>
      have hrest : ∀ segment ∈ rest, segment.Named :=
        fun segment hmem => hnamed segment (List.mem_cons_of_mem _ hmem)
      rw [template_cons, List.length_append] at hfuel
      cases segment with
      | literal text nonempty plain =>
          obtain ⟨left, rfl⟩ : ∃ left, fuel = text.length + left := ⟨fuel - text.length, by
            simp only [toText] at hfuel
            omega⟩
          have hleft : (template rest).length ≤ left := by
            simp only [toText] at hfuel
            omega
          rw [template_cons, toText, extractFrom_literal plain]
          constructor
          · rintro ⟨after, rfl, h⟩
            obtain ⟨values, hstops, rfl⟩ := (ih hrest hleft).mp h
            exact ⟨values, .literal hstops, rfl⟩
          · rintro ⟨values, h, rfl⟩
            cases h with
            | literal h => exact ⟨_, rfl, (ih hrest hleft).mpr ⟨values, h, rfl⟩⟩
      | placeholder name closed =>
          have hname : name ≠ [] := hnamed _ List.mem_cons_self
          have htemplate : template (placeholder name closed :: rest) =
              '\x7b' :: (name ++ '\x7d' :: template rest) := by
            simp [template, toText]
          obtain ⟨fuel, rfl⟩ : ∃ n, fuel = n + 1 := ⟨fuel - 1, by
            simp only [toText, List.length_cons] at hfuel
            omega⟩
          have hleft : (template rest).length ≤ fuel := by
            simp only [toText, List.length_cons] at hfuel
            omega
          rw [htemplate, extractFrom_placeholder closed hname]
          constructor
          · rintro ⟨value, after, others, rfl, hvalue, hnext, h, rfl⟩
            obtain ⟨values, hstops, rfl⟩ := (ih hrest hleft).mp h
            exact ⟨value :: values, .placeholder value hvalue hnext hstops, rfl⟩
          · rintro ⟨values, h, rfl⟩
            cases h with
            | placeholder value hvalue hnext h =>
                exact ⟨value, _, _, rfl, hvalue, hnext, (ih hrest hleft).mpr ⟨_, h, rfl⟩, rfl⟩

/-- Unless placeholders are adjacent, a value that stops ends where the part after it occurs
first. -/
theorem exists_matchParts_of_stops (h : Stops segments values uri)
    (hadjacent : adjacent segments = false) :
    ∃ text rest, uri = (parts segments).1 ++ text ∧
      matchParts false (parts segments).2 text = some rest ∧
      (segments = [] ∨ endsInLiteral segments = true → rest = []) := by
  induction h with
  | nil => exact ⟨[], [], rfl, by simp [parts, matchParts], fun _ => rfl⟩
  | @literal segments values uri text nonempty plain h ih =>
      obtain ⟨after, rest, rfl, hmatch, hrest⟩ := ih (by simpa [adjacent] using hadjacent)
      refine ⟨after, rest, (List.append_assoc _ _ _).symm, hmatch, fun hends => hrest ?_⟩
      by_cases hempty : segments = []
      · exact .inl hempty
      · rw [endsInLiteral_cons _ hempty] at hends
        exact .inr (by simpa using hends)
  | @placeholder segments values uri name closed value hvalue hnext h ih =>
      cases segments with
      | nil =>
          cases h
          exact ⟨value, value, List.append_nil value, by simp [parts, matchParts],
            fun hends => by simp [endsInLiteral, isLiteral] at hends⟩
      | cons segment others =>
          cases segment with
          | placeholder => cases hadjacent
          | literal text nonempty plain =>
              obtain ⟨after, rest, rfl, hmatch, hrest⟩ := ih (by simpa [adjacent] using hadjacent)
              obtain ⟨c, text, rfl⟩ := List.exists_cons_of_ne_nil nonempty
              have hc : c ∉ value := fun hmem => hvalue c hmem rfl
              obtain ⟨part, hpart⟩ : ∃ part,
                  (parts (literal (c :: text) nonempty plain :: others)).1 = c :: part := ⟨_, rfl⟩
              have hparts : parts (placeholder name closed :: literal (c :: text) nonempty plain ::
                  others) = ([], (parts (literal (c :: text) nonempty plain :: others)).1 ::
                    (parts (literal (c :: text) nonempty plain :: others)).2) := rfl
              rw [hparts, hpart]
              refine ⟨value ++ c :: part ++ after, rest, (List.append_assoc _ _ _).symm, ?_,
                fun hends => hrest ?_⟩
              · rw [matchParts, findText_of_not_mem hc]
                · simpa using hmatch
                · simp
              · rw [endsInLiteral_cons _ (List.cons_ne_nil _ _)] at hends
                simpa using hends

/-- Unless placeholders are adjacent, a URI that is read has no shorter front that fits. -/
theorem Stops.shortest (h : Stops segments values uri) (hadjacent : adjacent segments = false)
    (hends : endsInLiteral segments = true) : Shortest segments uri := by
  obtain ⟨text, rest, rfl, hmatch, hrest⟩ := exists_matchParts_of_stops h hadjacent
  exact ((shortest_iff hmatch).mp (hrest (.inr hends))).2

section Named
variable {segments : List Segment} (hnamed : ∀ segment ∈ segments, segment.Named) {uri : String}
include hnamed

theorem extractParams_eq_some_iff {found : List TemplateParam} :
    extractParams uri (String.ofList (template segments)) = some found ↔
      ∃ values, Stops segments values uri.toList ∧ found = params segments values := by
  rw [extractParams, String.toList_ofList, String.length_ofList]
  exact extractFrom_template hnamed (Nat.le_refl _)

theorem isSome_extractParams_iff :
    (extractParams uri (String.ofList (template segments))).isSome = true ↔
      ∃ values, Stops segments values uri.toList := by
  rw [Option.isSome_iff_exists]
  constructor
  · rintro ⟨found, hfound⟩
    obtain ⟨values, hstops, -⟩ := (extractParams_eq_some_iff hnamed).mp hfound
    exact ⟨values, hstops⟩
  · rintro ⟨values, hstops⟩
    exact ⟨_, (extractParams_eq_some_iff hnamed).mpr ⟨values, hstops, rfl⟩⟩

/-- The values that are found make up the URI. -/
theorem fits_of_extractParams {found : List TemplateParam}
    (h : extractParams uri (String.ofList (template segments)) = some found) :
    found.map (fun param => param.name.toList) = names segments ∧
      Fits segments (found.map fun param => param.value.toList) uri.toList := by
  obtain ⟨values, hstops, rfl⟩ := (extractParams_eq_some_iff hnamed).mp h
  have hfits := hstops.fits
  exact ⟨hfits.params_name, by rwa [hfits.params_value]⟩

end Named

theorem stops_nil_iff {uri : List Char} : (∃ values, Stops [] values uri) ↔ uri = [] := by
  constructor
  · rintro ⟨values, h⟩
    cases h
    rfl
  · rintro rfl
    exact ⟨[], .nil⟩

/-- The two matchers agree on a URI, and the values make up the URI, unless the URI is not empty but
the template is, or the URI matches but has no values that stop, or it has such values although a
front of it fits already, which takes two adjacent placeholders. -/
theorem extractParams_agrees_iff (segments : List Segment)
    (hnamed : ∀ segment ∈ segments, segment.Named) (uri : String) :
    (((extractParams uri (String.ofList (template segments))).isSome = true ↔
        uriMatchesTemplate uri (String.ofList (template segments)) = true) ∧
      ∀ found, extractParams uri (String.ofList (template segments)) = some found →
        found.map (fun param => param.name.toList) = names segments ∧
        Fits segments (found.map fun param => param.value.toList) uri.toList) ↔
      (segments = [] → uri = "") ∧
        (Generates segments uri.toList →
          (endsInLiteral segments = true → Shortest segments uri.toList) →
          ∃ values, Stops segments values uri.toList) ∧
        (adjacent segments = true → endsInLiteral segments = true →
          (∃ values, Stops segments values uri.toList) → Shortest segments uri.toList) := by
  have hgenerates : (∃ values, Stops segments values uri.toList) → Generates segments uri.toList :=
    fun ⟨values, hstops⟩ => ⟨values, hstops.fits⟩
  rw [and_iff_left fun found => fits_of_extractParams hnamed, isSome_extractParams_iff hnamed,
    uriMatchesTemplate_iff]
  by_cases hempty : segments = []
  · subst hempty
    rw [stops_nil_iff, String.toList_eq_nil_iff]
    refine ⟨fun h => ⟨fun _ => h.mpr (.inl rfl), fun _ _ => h.mpr (.inl rfl), nofun⟩, fun h => ?_⟩
    exact ⟨fun _ => .inl rfl, fun _ => h.1 rfl⟩
  · rw [or_iff_right hempty]
    constructor
    · intro h
      exact ⟨fun h => absurd h hempty, fun hfits hends => h.mpr ⟨hfits, hends⟩,
        fun _ hends hstops => (h.mp hstops).2 hends⟩
    · rintro ⟨-, hstops, hshortest⟩
      refine ⟨fun hvalues => ⟨hgenerates hvalues, fun hends => ?_⟩, fun h => hstops h.1 h.2⟩
      cases hadjacent : adjacent segments with
      | true => exact hshortest hadjacent hends hvalues
      | false =>
          obtain ⟨values, hstops⟩ := hvalues
          exact hstops.shortest hadjacent hends

/-- The template "file:///{path}/raw". -/
def rawFile : List Segment :=
  [literal "file:///".toList (by decide) (by decide), placeholder "path".toList (by decide),
    literal "/raw".toList (by decide) (by decide)]

theorem rawFile_named : ∀ segment ∈ rawFile, segment.Named := by
  intro segment hmem
  rw [rawFile] at hmem
  fin_cases hmem
  · trivial
  · exact List.cons_ne_nil _ _
  · trivial

/-- The values of the placeholders make up a URI whose path has no slash. -/
theorem extractParams_agrees_iff_rawFile :
    ((extractParams "file:///a/raw" (String.ofList (template rawFile))).isSome = true ↔
        uriMatchesTemplate "file:///a/raw" (String.ofList (template rawFile)) = true) ∧
      ∀ found, extractParams "file:///a/raw" (String.ofList (template rawFile)) = some found →
        found.map (fun param => param.name.toList) = names rawFile ∧
        Fits rawFile (found.map fun param => param.value.toList) "file:///a/raw".toList := by
  have hhead : (template (rawFile.drop 2)).head? = some '/' := rfl
  have hvalue : ∀ c ∈ ['a'], some c ≠ (template (rawFile.drop 2)).head? := by
    intro c hc
    rw [hhead, List.mem_singleton.mp hc]
    simp
  have hnext : ∀ c ∈ "/raw".toList.head?, some c = (template (rawFile.drop 2)).head? := by
    intro c hc
    rw [hhead, ← hc]
    rfl
  exact (extractParams_agrees_iff rawFile rawFile_named "file:///a/raw").mpr
    ⟨nofun, fun _ _ => ⟨[['a']], .literal (.placeholder ['a'] hvalue hnext (.literal .nil))⟩,
      fun h => by cases h⟩

/-- A path with a slash matches, but the code ends the value at the slash. -/
theorem extractParams_disagrees :
    ¬ (((extractParams "file:///a/b/raw" (String.ofList (template rawFile))).isSome = true ↔
        uriMatchesTemplate "file:///a/b/raw" (String.ofList (template rawFile)) = true) ∧
      ∀ found, extractParams "file:///a/b/raw" (String.ofList (template rawFile)) = some found →
        found.map (fun param => param.name.toList) = names rawFile ∧
        Fits rawFile (found.map fun param => param.value.toList) "file:///a/b/raw".toList) := by
  rintro ⟨h, -⟩
  have hnone : (extractParams "file:///a/b/raw" (String.ofList (template rawFile))).isSome =
      false := by decide
  have hmatches : uriMatchesTemplate "file:///a/b/raw" (String.ofList (template rawFile)) =
      true := by decide
  rw [hnone] at h
  exact Bool.false_ne_true (h.mpr hmatches)

end Segment
end Dcp
