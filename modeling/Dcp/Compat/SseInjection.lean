import Dcp.Compat.SseText
import Dcp.Security.PlainText

/-!
What the standard reads from the text of an event: the event and nothing else. Only an id with a
null character is not read back, since the standard passes over such an id.
-/

namespace Dcp
open Library
namespace SseEvent

/-- The data without the line feed at the end. -/
def dataRead (data : List Char) : List Char :=
  if data.getLast? = some '\n' then data.dropLast else data

theorem dropLast_unlines_linesOf (data : List Char) :
    (unlines '\n' (linesOf '\n' data)).dropLast = dataRead data := by
  rw [unlines_linesOf, dataRead]
  split
  · rfl
  · exact List.dropLast_concat

/-- The id that is read. -/
def idRead : Option String → List Char
  | none => []
  | some id => if '\x00' ∈ (sanitizeSseField id).toList then [] else (sanitizeSseField id).toList

/-- What the lines before the data tell. -/
def headRead (event : SseEvent) : EventReader :=
  ⟨event.eventType.asStr.toList, [], idRead event.id,
    event.retry.map fun retry => Nat.toDigits 10 retry.toNat, []⟩

section Fields
variable (reader : EventReader)

theorem readLine_event (value : List Char) :
    reader.readLine (fieldText ['e', 'v', 'e', 'n', 't'] value) =
      { reader with type := value } := by
  rw [fieldText, EventReader.readLine_field reader (by decide) (by decide), EventReader.setField,
    if_pos rfl]
  rfl

theorem readLine_id (value : List Char) :
    reader.readLine (fieldText ['i', 'd'] value) =
      if '\x00' ∈ value then reader else { reader with lastId := value } := by
  rw [fieldText, EventReader.readLine_field reader (by decide) (by decide), EventReader.setField,
    if_neg (by decide), if_neg (by decide), if_pos rfl]
  rfl

theorem readLine_retry (n : Nat) :
    reader.readLine (fieldText ['r', 'e', 't', 'r', 'y'] (Nat.toDigits 10 n)) =
      { reader with retry := some (Nat.toDigits 10 n) } := by
  have hdigits : (Nat.toDigits 10 n).all Char.isDigit = true := by
    rw [List.all_eq_true]
    exact fun c hc => Nat.isDigit_of_mem_toDigits (by decide) (by decide) hc
  have hne : Nat.toDigits 10 n ≠ [] := Nat.toDigits_ne_nil
  rw [fieldText, EventReader.readLine_field reader (by decide) (by decide), EventReader.setField,
    if_neg (by decide), if_neg (by decide), if_neg (by decide), if_pos rfl]
  exact if_pos ⟨hne, hdigits⟩

end Fields

theorem foldl_readLine_headTexts (event : SseEvent) :
    event.headTexts.foldl EventReader.readLine EventReader.start = event.headRead := by
  have hid : ∀ type, ((event.id.map fun id =>
        fieldText ['i', 'd'] (sanitizeSseField id).toList).toList).foldl EventReader.readLine
      ⟨type, [], [], none, []⟩ = ⟨type, [], idRead event.id, none, []⟩ := by
    intro type
    cases event.id with
    | none => rfl
    | some id =>
        rw [Option.map_some, Option.toList_some, List.foldl_cons, List.foldl_nil, readLine_id,
          idRead]
        by_cases hnul : '\x00' ∈ (sanitizeSseField id).toList
        · rw [if_pos hnul, if_pos hnul]
        · rw [if_neg hnul, if_neg hnul]
  have hretry : ∀ type id, ((event.retry.map fun retry =>
        fieldText ['r', 'e', 't', 'r', 'y'] (Nat.toDigits 10 retry.toNat)).toList).foldl
        EventReader.readLine ⟨type, [], id, none, []⟩ =
      ⟨type, [], id, event.retry.map fun retry => Nat.toDigits 10 retry.toNat, []⟩ := by
    intro type id
    cases event.retry with
    | none => rfl
    | some retry => exact readLine_retry _ _
  have hstart : ∀ type, ({ EventReader.start with type := type } : EventReader) =
      ⟨type, [], [], none, []⟩ := fun type => rfl
  rw [headTexts, List.foldl_append, List.foldl_append, List.foldl_cons, List.foldl_nil,
    readLine_event, hstart, hid, hretry, headRead]

theorem asStr_ne_nil (type : SseEventType) : type.asStr.toList ≠ [] := by
  cases type <;> simp [SseEventType.asStr]

/-- The reader after the text: one event, with its data, and the fields before the data. -/
theorem read_format (codec : JsonCodec) (event : SseEvent) :
    EventReader.read (event.format codec).toList =
      { event.headRead with
        type := []
        events := [⟨event.eventType.asStr.toList,
          dataRead (normalizeEnds (sanitizeReplayPayload codec event.data).toList),
          idRead event.id⟩] } := by
  have hlines := unlines_linesOf_ne_nil '\n'
    (normalizeEnds (sanitizeReplayPayload codec event.data).toList)
  rw [toList_format, EventReader.read_unlines fun text htext => noLineEnd_texts htext, texts,
    List.foldl_append, List.foldl_append, foldl_readLine_headTexts, foldl_readLine_dataTexts,
    List.foldl_cons, List.foldl_nil, EventReader.readLine_nil, EventReader.dispatch, headRead,
    toList_sanitizeSseData]
  simp only [List.nil_append, if_neg hlines, if_neg (asStr_ne_nil event.eventType),
    dropLast_unlines_linesOf]

/-- The text is read as the event and nothing else. -/
structure ReadBack (codec : JsonCodec) (event : SseEvent) : Prop where
  events : (EventReader.read (event.format codec).toList).events =
    [⟨event.eventType.asStr.toList,
      dataRead (normalizeEnds (sanitizeReplayPayload codec event.data).toList),
      (event.id.map fun id => (sanitizeSseField id).toList).getD []⟩]
  retry : (EventReader.read (event.format codec).toList).retry =
    event.retry.map fun retry => Nat.toDigits 10 retry.toNat

/-- An event is read back, if and only if its id has no null character left. -/
theorem readBack_iff_id (codec : JsonCodec) (event : SseEvent) :
    ReadBack codec event ↔ ∀ id, event.id = some id → '\x00' ∉ (sanitizeSseField id).toList := by
  have hread := read_format codec event
  constructor
  · intro h id hid hnul
    have hevents := h.events
    rw [hread, List.singleton_inj, StreamEvent.mk.injEq, hid, idRead, if_pos hnul] at hevents
    have hempty : (sanitizeSseField id).toList = [] := hevents.2.2.symm
    rw [hempty] at hnul
    cases hnul
  · intro h
    have hid : idRead event.id = (event.id.map fun id => (sanitizeSseField id).toList).getD [] := by
      cases hid : event.id with
      | none => rfl
      | some id => rw [idRead, if_neg (h id hid), Option.map_some, Option.getD_some]
    exact ⟨by rw [hread, hid], by rw [hread, headRead]⟩

/-- The standard passes over an id that is a null character. -/
theorem readBack_null_id :
    ¬ ∀ (codec : JsonCodec) (event : SseEvent), ReadBack codec event := by
  intro h
  have hevents := (h .reference ⟨.ping, "", some "\x00", none⟩).events
  have hplain : sanitizeText "\x00" = "\x00" :=
    sanitizeText_plain (show "\x00" = String.ofList ['\x00'] from rfl) (by decide)
  have hfield : (sanitizeSseField "\x00").toList = ['\x00'] := by
    rw [sanitizeSseField, hplain, String.toList_ofList]
    decide
  rw [read_format, List.singleton_inj, StreamEvent.mk.injEq, idRead, Option.map_some,
    Option.getD_some, hfield, if_pos List.mem_cons_self] at hevents
  exact absurd hevents.2.2 (by decide)

end SseEvent
end Dcp
