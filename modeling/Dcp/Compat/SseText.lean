import Dcp.Compat.Sse
import Dcp.Library.EventStream
import Dcp.Library.Path

/-!
The text of an event, line by line. No field starts a line of its own, and the data that the
standard reads from the text is that of the event, its line ends made line feeds and one at the end
left out.
-/

namespace Dcp
open Library

theorem toList_sanitizeSseData (codec : JsonCodec) (value : String) :
    (sanitizeSseData codec value).toList =
      normalizeEnds (sanitizeReplayPayload codec value).toList := by
  have hlf : "\n".toList = ['\n'] := by simp
  have hpair : "\r\n".toList = ['\r', '\n'] := by simp
  have hcr : "\r".toList = ['\r'] := by simp
  rw [sanitizeSseData, replaceText, replaceText]
  simp only [String.toList_ofList, hlf, hpair, hcr, replace_ends]

theorem noLineEnd_sanitizeSseField (value : String) :
    NoLineEnd (sanitizeSseField value).toList := by
  rw [sanitizeSseField, String.toList_ofList]
  constructor <;>
    · intro hmem
      obtain ⟨c, -, hc⟩ := List.mem_map.mp hmem
      split at hc
      · exact absurd hc (by decide)
      · next hne => exact hne (by rw [hc]; decide)

/-- The lines of a text without carriage returns. -/
theorem lines_eq {text : String} (h : '\r' ∉ text.toList) :
    lines text = if text.isEmpty then [] else (linesOf '\n' text.toList).map String.ofList := by
  have hreturns : ∀ part ∈ text.toList.splitOn '\n', part.getLast? ≠ some '\r' :=
    fun part hpart hlast => h (mem_of_mem_splitOn hpart (List.mem_of_getLast? hlast))
  have hkept : ((text.toList.splitOn '\n').dropLast.map fun line =>
      if line.getLast? = some '\r' then line.dropLast else line) =
        (text.toList.splitOn '\n').dropLast := by
    rw [List.map_congr_left fun part hpart =>
      if_neg (hreturns part (List.mem_of_mem_dropLast hpart)), List.map_id']
  obtain ⟨front, last, hparts⟩ : ∃ front last, text.toList.splitOn '\n' = front ++ [last] :=
    ⟨_, _, (List.dropLast_concat_getLast (List.splitOn_ne_nil '\n' text.toList)).symm⟩
  have htext : ['\n'].intercalate (text.toList.splitOn '\n') = text.toList :=
    List.intercalate_splitOn '\n'
  simp only [lines, linesOf, hkept]
  rw [hparts] at htext ⊢
  rw [List.dropLast_concat, List.getLast?_concat]
  split
  · next hempty =>
      rw [String.isEmpty_iff.mp hempty] at htext
      cases front with
      | nil =>
          have hlast : last = [] := by simpa using htext
          rw [hlast]
          rfl
      | cons part front => cases front <;> simp at htext
  · next hfull =>
      cases last with
      | nil =>
          have hlength : (front ++ [[]]).length ≠ 1 := by
            intro hlength
            have hfront : front = [] := List.length_eq_zero_iff.mp (by simpa using hlength)
            rw [hfront] at htext
            have hnil := String.toList_eq_nil_iff.mp (by simpa using htext)
            exact hfull (String.isEmpty_iff.mpr hnil)
          rw [if_pos ⟨rfl, hlength⟩]
          exact congrArg (List.map String.ofList) (List.append_nil front)
      | cons c last =>
          rw [if_neg fun h => List.cons_ne_nil c last (Option.some.inj h.1)]
          rfl

namespace SseEvent

/-- The name of a field and its value. -/
def fieldText (name value : List Char) : List Char := name ++ ':' :: ' ' :: value

/-- The lines before the data. -/
def headTexts (event : SseEvent) : List (List Char) :=
  [fieldText ['e', 'v', 'e', 'n', 't'] event.eventType.asStr.toList] ++
    (event.id.map fun id => fieldText ['i', 'd'] (sanitizeSseField id).toList).toList ++
    (event.retry.map fun retry =>
      fieldText ['r', 'e', 't', 'r', 'y'] (Nat.toDigits 10 retry.toNat)).toList

def dataTexts (data : String) : List (List Char) :=
  if data.isEmpty then [['d', 'a', 't', 'a', ':']]
  else (linesOf '\n' data.toList).map (fieldText ['d', 'a', 't', 'a'])

/-- The lines of the text of an event. -/
def texts (codec : JsonCodec) (event : SseEvent) : List (List Char) :=
  event.headTexts ++ dataTexts (sanitizeSseData codec event.data) ++ [[]]

theorem toList_line (text : String) : (line text).toList = text.toList ++ ['\n'] := by
  rw [line, String.toList_append]
  simp

/-- The lines of data as they are written. -/
theorem flatMap_dataLines (data : String) (h : '\r' ∉ data.toList) :
    (((lines data).map fun text => line ("data: " ++ text)) ++
      if data.isEmpty then [line "data:"] else []).flatMap String.toList =
    unlines '\n' (dataTexts data) := by
  rw [lines_eq h, dataTexts]
  split
  · simp [unlines, toList_line]
  · simp [unlines, toList_line, fieldText, List.flatMap_map]

theorem toList_format (codec : JsonCodec) (event : SseEvent) :
    (event.format codec).toList = unlines '\n' (event.texts codec) := by
  have hdata : '\r' ∉ (sanitizeSseData codec event.data).toList := by
    rw [toList_sanitizeSseData]
    exact not_mem_normalizeEnds _
  have hid : (event.id.map fun id => line ("id: " ++ sanitizeSseField id)).toList.flatMap
      String.toList = unlines '\n'
        (event.id.map fun id => fieldText ['i', 'd'] (sanitizeSseField id).toList).toList := by
    cases event.id with
    | none => rfl
    | some id => simp [unlines, toList_line, fieldText]
  have hretry :
      (event.retry.map fun retry => line ("retry: " ++ toString retry.toNat)).toList.flatMap
      String.toList = unlines '\n' (event.retry.map fun retry =>
        fieldText ['r', 'e', 't', 'r', 'y'] (Nat.toDigits 10 retry.toNat)).toList := by
    cases event.retry with
    | none => rfl
    | some retry => simp [unlines, toList_line, fieldText]
  have hbody := flatMap_dataLines _ hdata
  rw [List.flatMap_append] at hbody
  simp only [format, texts, headTexts, String.toList_join, unlines_append, List.flatMap_append,
    hid, hretry, ← hbody, List.append_assoc]
  simp [unlines, toList_line, fieldText]

theorem noLineEnd_fieldText {name value : List Char} (hname : NoLineEnd name)
    (hvalue : NoLineEnd value) : NoLineEnd (fieldText name value) :=
  hname.append (.cons (by decide) (.cons (by decide) hvalue))

theorem noLineEnd_linesOf {data line : List Char} (h : '\r' ∉ data)
    (hline : line ∈ linesOf '\n' data) : NoLineEnd line :=
  ⟨fun hmem => h (mem_of_mem_splitOn (mem_splitOn_of_mem_linesOf hline) hmem),
    not_mem_of_mem_splitOn (mem_splitOn_of_mem_linesOf hline)⟩

/-- No line holds a line end. -/
theorem noLineEnd_texts {codec : JsonCodec} {event : SseEvent} {text : List Char}
    (h : text ∈ event.texts codec) : NoLineEnd text := by
  have hdata : '\r' ∉ (sanitizeSseData codec event.data).toList := by
    rw [toList_sanitizeSseData]
    exact not_mem_normalizeEnds _
  simp only [texts, headTexts, List.mem_append, List.mem_singleton, Option.mem_toList,
    Option.map_eq_some_iff] at h
  rcases h with (((rfl | ⟨id, -, rfl⟩) | ⟨retry, -, rfl⟩) | h) | rfl
  · apply noLineEnd_fieldText ⟨by decide, by decide⟩
    cases event.eventType <;> exact ⟨by decide, by decide⟩
  · exact noLineEnd_fieldText ⟨by decide, by decide⟩ (noLineEnd_sanitizeSseField id)
  · apply noLineEnd_fieldText ⟨by decide, by decide⟩
    constructor <;>
      · intro hmem
        exact absurd (Nat.isDigit_of_mem_toDigits (by decide) (by decide) hmem) (by decide)
  · rw [dataTexts] at h
    split at h
    · rw [List.mem_singleton.mp h]
      exact ⟨by decide, by decide⟩
    · obtain ⟨line, hline, rfl⟩ := List.mem_map.mp h
      exact noLineEnd_fieldText ⟨by decide, by decide⟩ (noLineEnd_linesOf hdata hline)
  · exact ⟨List.not_mem_nil, List.not_mem_nil⟩

theorem mem_headTexts {event : SseEvent} {text : List Char} (h : text ∈ event.headTexts) :
    ∃ name value, text = name ++ ':' :: value ∧ name ≠ [] ∧ ':' ∉ name ∧
      name ≠ ['d', 'a', 't', 'a'] := by
  simp only [headTexts, List.mem_append, List.mem_singleton, Option.mem_toList,
    Option.map_eq_some_iff] at h
  rcases h with (rfl | ⟨id, -, rfl⟩) | ⟨retry, -, rfl⟩
  · exact ⟨_, _, rfl, by decide, by decide, by decide⟩
  · exact ⟨_, _, rfl, by decide, by decide, by decide⟩
  · exact ⟨_, _, rfl, by decide, by decide, by decide⟩

theorem foldl_readLine_dataTexts (reader : EventReader) (data : String) :
    (dataTexts data).foldl EventReader.readLine reader =
      { reader with data := reader.data ++ unlines '\n' (linesOf '\n' data.toList) } := by
  rw [dataTexts]
  split
  · next hempty =>
      have hcolon : ':' ∉ ['d', 'a', 't', 'a'] := by decide
      rw [String.isEmpty_iff.mp hempty, String.toList_empty, linesOf_nil, List.foldl_cons,
        List.foldl_nil]
      refine (EventReader.readLine_field reader (List.cons_ne_nil _ _) hcolon []).trans ?_
      rw [EventReader.setField_data, EventReader.dropSpace, List.append_nil]
      · rfl
      · exact fun value => (List.cons_ne_nil _ _).symm
  · exact EventReader.foldl_readLine_data reader _

/-- The text describes one event, and its data are the lines of the data. -/
theorem data_read_format (codec : JsonCodec) (event : SseEvent) :
    (EventReader.read (event.format codec).toList).events.map StreamEvent.data =
      [(unlines '\n' (linesOf '\n' (sanitizeSseData codec event.data).toList)).dropLast] := by
  have hhead : ∀ text ∈ event.headTexts, _ := fun text => mem_headTexts
  obtain ⟨hdata, hevents⟩ := EventReader.foldl_readLine_of_ne hhead EventReader.start
  have hnone : EventReader.start.data = [] := rfl
  have hfresh : EventReader.start.events = [] := rfl
  rw [toList_format, EventReader.read_unlines fun text htext => noLineEnd_texts htext, texts,
    List.foldl_append, List.foldl_append, foldl_readLine_dataTexts, List.foldl_cons, List.foldl_nil,
    EventReader.readLine_nil, EventReader.dispatch]
  have hlines := unlines_linesOf_ne_nil '\n' (sanitizeSseData codec event.data).toList
  simp only [hdata, hevents, hnone, hfresh, List.nil_append, if_neg hlines, List.map_cons,
    List.map_nil]

end SseEvent
end Dcp
