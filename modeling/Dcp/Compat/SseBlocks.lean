import Dcp.Compat.SseInjection
import Dcp.Library.Digits
import Dcp.Library.EventStream
import Dcp.Security.PlainText
import Dcp.Transport.Stdio

/-!
The text of an event as a block of a stream, and the id that a client sends back to go on from
there: the id of an event is read as it was given out.
-/

namespace Dcp
open Library

def dropPlus : List Char → List Char
  | '+' :: digits => digits
  | text => text

/-- The number that the text spells, if it is one of 64 bits. -/
def parseU64 (text : List Char) : Option UInt64 :=
  let digits := dropPlus text
  if digits ≠ [] ∧ digits.all Char.isDigit ∧ ofDigits 10 digits < 18446744073709551616 then
    some (.ofNat (ofDigits 10 digits))
  else none

/-- The id in the header to resume from. -/
def SseTransport.parseLastEventId (header : List Char) : Option UInt64 :=
  parseU64 (strip isWhitespace header)

/-- The digits of an id. -/
def idText (id : UInt64) : List Char := Nat.toDigits 10 id.toNat

section Ids
variable (id : UInt64)

theorem isDigit_of_mem_idText {c : Char} (h : c ∈ idText id) : c.isDigit = true :=
  Nat.isDigit_of_mem_toDigits (by decide) (by decide) h

theorem digit_of_isDigit {c : Char} (h : c.isDigit = true) : ∃ n < 10, c = Char.ofNat (48 + n) := by
  rw [Char.isDigit, Bool.and_eq_true, decide_eq_true_eq, decide_eq_true_eq] at h
  have hlow : 48 ≤ c.toNat := UInt32.le_iff_toNat_le.mp h.1
  have hhigh : c.toNat ≤ 57 := UInt32.le_iff_toNat_le.mp h.2
  refine ⟨c.toNat - 48, by omega, ?_⟩
  rw [Nat.add_sub_cancel' hlow, Char.ofNat_toNat]

/-- What holds of the ten digits holds of every character of an id. -/
theorem forall_mem_idText {p : Char → Prop} (h : ∀ n < 10, p (Char.ofNat (48 + n))) :
    ∀ c ∈ idText id, p c := by
  intro c hc
  obtain ⟨n, hn, rfl⟩ := digit_of_isDigit (isDigit_of_mem_idText id hc)
  exact h n hn

theorem dropPlus_of_isDigit {text : List Char} (h : ∀ c ∈ text, c.isDigit = true) :
    dropPlus text = text := by
  fun_cases dropPlus text with
  | case1 digits => exact absurd (h '+' List.mem_cons_self) (by decide)
  | case2 => rfl

theorem parseU64_idText : parseU64 (idText id) = some id := by
  have hdigits : (idText id).all Char.isDigit = true :=
    List.all_eq_true.mpr fun c hc => isDigit_of_mem_idText id hc
  have hsign : dropPlus (idText id) = idText id :=
    dropPlus_of_isDigit fun c hc => isDigit_of_mem_idText id hc
  have hvalue : ofDigits 10 (idText id) = id.toNat := ofDigits_toDigits (by decide) (by decide) _
  rw [parseU64, hsign, hvalue]
  exact (if_pos ⟨Nat.toDigits_ne_nil, hdigits, id.toNat_lt⟩).trans
    (congrArg some UInt64.ofNat_toNat)

theorem strip_idText : strip isWhitespace (idText id) = idText id := by
  have hblank := forall_mem_idText id (p := fun c => isWhitespace c = false) (by decide)
  refine strip_eq_self_iff.mpr ⟨fun c hc => ?_, fun c hc => ?_⟩
  · exact hblank c (List.mem_of_head? hc)
  · exact hblank c (List.mem_of_getLast? hc)

theorem parseLastEventId_idText : SseTransport.parseLastEventId (idText id) = some id := by
  rw [SseTransport.parseLastEventId, strip_idText, parseU64_idText]

theorem toList_toString_id : (toString id.toNat).toList = idText id := by
  have hid : toString id.toNat = String.ofList (idText id) := rfl
  rw [hid, String.toList_ofList]

/-- An id is no secret. -/
theorem sanitizeSseField_id : sanitizeSseField (toString id.toNat) = toString id.toNat := by
  have hid : toString id.toNat = String.ofList (idText id) := rfl
  have hlower : (idText id).map Char.toLower = idText id := by
    have hsame := forall_mem_idText id (p := fun c => c.toLower = c) (by decide)
    rw [List.map_congr_left hsame, List.map_id']
  have hplain : isPlainText ((idText id).map Char.toLower) = true := by
    rw [hlower, isPlainText, Bool.and_eq_true, List.all_eq_true, List.all_eq_true]
    refine ⟨forall_mem_idText id (by decide), fun word hword => ?_⟩
    -- every word has a character that is no digit
    have hletter : sensitiveWords.all (fun word => word.any fun c => !c.isDigit) = true := by
      decide
    obtain ⟨c, hc, hdigit⟩ := List.any_eq_true.mp (List.all_eq_true.mp hletter word hword)
    rw [Bool.not_eq_true', Bool.eq_false_iff]
    intro hinfix
    have hmem := isDigit_of_mem_idText id (mem_of_hasInfix hinfix hc)
    rw [hmem] at hdigit
    cases hdigit
  have hlines : ∀ c ∈ idText id, (if c = '\r' ∨ c = '\n' then ' ' else c) = c :=
    forall_mem_idText id (by decide)
  rw [sanitizeSseField, sanitizeText_plain hid hplain, hid, String.toList_ofList,
    List.map_congr_left hlines, List.map_id']

end Ids

namespace SseEvent
variable (codec : JsonCodec) (event : SseEvent)

/-- The id that the event is read with; one with a null character is passed over. -/
def blockId : Option (List Char) :=
  event.id.bind fun id =>
    if '\x00' ∈ (sanitizeSseField id).toList then none else some (sanitizeSseField id).toList

/-- The lines before the data, after whatever was read before. -/
theorem foldl_readLine_headTexts_after (reader : EventReader) :
    ∃ retry, event.headTexts.foldl EventReader.readLine reader =
      { reader with
        type := event.eventType.asStr.toList
        lastId := event.blockId.getD reader.lastId
        retry } := by
  have hid : ∀ reader : EventReader, ((event.id.map fun id =>
        fieldText ['i', 'd'] (sanitizeSseField id).toList).toList).foldl EventReader.readLine
      reader = { reader with lastId := event.blockId.getD reader.lastId } := by
    intro reader
    rw [blockId]
    cases event.id with
    | none => rfl
    | some id =>
        rw [Option.map_some, Option.toList_some, List.foldl_cons, List.foldl_nil, readLine_id,
          Option.bind_some]
        split <;> rfl
  have hretry : ∀ reader : EventReader, ∃ retry, ((event.retry.map fun retry =>
        fieldText ['r', 'e', 't', 'r', 'y'] (Nat.toDigits 10 retry.toNat)).toList).foldl
        EventReader.readLine reader = { reader with retry } := by
    intro reader
    cases event.retry with
    | none => exact ⟨reader.retry, rfl⟩
    | some retry => exact ⟨_, readLine_retry reader _⟩
  rw [headTexts, List.foldl_append, List.foldl_append, List.foldl_cons, List.foldl_nil,
    readLine_event, hid]
  exact hretry _

theorem ne_nil_of_mem_dataTexts {data : String} {line : List Char} (h : line ∈ dataTexts data) :
    line ≠ [] := by
  rw [dataTexts] at h
  split at h
  · rw [List.mem_singleton.mp h]
    exact List.cons_ne_nil _ _
  · obtain ⟨value, -, rfl⟩ := List.mem_map.mp h
    exact List.cons_ne_nil _ _

def block : EventBlock where
  lines := event.texts codec
  type := event.eventType.asStr.toList
  data := dataRead (normalizeEnds (sanitizeReplayPayload codec event.data).toList)
  id := event.blockId
  ends := by
    refine ⟨_, rfl, fun line hline => ?_⟩
    obtain hline | hline := List.mem_append.mp hline
    · obtain ⟨name, value, rfl, hname, -⟩ := mem_headTexts hline
      exact List.append_ne_nil_of_left_ne_nil hname _
    · exact ne_nil_of_mem_dataTexts hline
  noLineEnd _ := noLineEnd_texts
  reads reader htype hdata := by
    obtain ⟨retry, hhead⟩ := event.foldl_readLine_headTexts_after reader
    have hlines := unlines_linesOf_ne_nil '\n'
      (normalizeEnds (sanitizeReplayPayload codec event.data).toList)
    refine ⟨retry, ?_⟩
    rw [texts, List.foldl_append, List.foldl_append, hhead, foldl_readLine_dataTexts,
      List.foldl_cons, List.foldl_nil, EventReader.readLine_nil, EventReader.dispatch,
      toList_sanitizeSseData, hdata]
    simp only [List.nil_append, if_neg hlines, if_neg (asStr_ne_nil event.eventType),
      dropLast_unlines_linesOf]

theorem text_block : (event.format codec).toList = EventBlock.text [event.block codec] := by
  rw [toList_format, EventBlock.text, List.flatMap_singleton]
  rfl

end SseEvent
end Dcp
