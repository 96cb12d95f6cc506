import Dcp.Compat.SseText

/-!
The Python client of the event stream, which looks at one line at a time: whatever the type of the
event, the data of each line become a message of their own, without the white space around them.
What the client enqueues is compared with what the standard reads from the text of the server.
-/

namespace Dcp
open Library

def isPySpace (c : Char) : Bool :=
  let n := c.toNat
  (9 ≤ n && n ≤ 13) || (28 ≤ n && n ≤ 32) || n = 0x85 || n = 0xA0 || n = 0x1680 ||
    (0x2000 ≤ n && n ≤ 0x200A) || n = 0x2028 || n = 0x2029 || n = 0x202F || n = 0x205F || n = 0x3000

/-- How the HTTP library hands over a body: line by line, each with its line feed. -/
structure ResponseContent where
  lines : List Char → List (List Char)
  byLine : ∀ texts : List (List Char), (∀ text ∈ texts, '\n' ∉ text) →
    lines (unlines '\n' texts) = texts.map fun text => text ++ ['\n']

namespace ResponseContent

def reference : ResponseContent where
  lines body :=
    let parts := body.splitOn '\n'
    (parts.dropLast.map fun text => text ++ ['\n']) ++
      (parts.getLast?.filter fun text => text ≠ []).toList
  byLine texts h := by
    rw [splitOn_unlines h]
    simp

end ResponseContent

structure SseListener where
  eventQueue : List (List Char)
  lastEventId : Option (List Char)

namespace SseListener

def listenLine (listener : SseListener) (line : List Char) : SseListener :=
  let line := strip isPySpace line
  if ['d', 'a', 't', 'a', ':'].isPrefixOf line then
    { listener with eventQueue := listener.eventQueue ++ [strip isPySpace (line.drop 5)] }
  else if ['i', 'd', ':'].isPrefixOf line then
    { listener with lastEventId := some (strip isPySpace (line.drop 3)) }
  else listener

def listen (content : ResponseContent) (listener : SseListener) (body : String) : SseListener :=
  (content.lines body.toList).foldl listenLine listener

theorem listenLine_blank (listener : SseListener) : listener.listenLine ['\n'] = listener := rfl

/-- A field whose name does not start like the data is not enqueued. -/
theorem eventQueue_listenLine_of_ne {c : Char} (hspace : isPySpace c = false) (hc : c ≠ 'd')
    (listener : SseListener) (text : List Char) :
    (listener.listenLine (c :: text)).eventQueue = listener.eventQueue := by
  have hprefix :
      ¬ ['d', 'a', 't', 'a', ':'].isPrefixOf (c :: text.rdropWhile isPySpace) = true := by
    intro h
    obtain ⟨rest, hrest⟩ := List.isPrefixOf_iff_prefix.mp h
    exact hc (List.cons.inj hrest).1.symm
  rw [listenLine, strip_cons_of_neg hspace, if_neg hprefix]
  split
  · rfl
  · rfl

theorem listenLine_data (listener : SseListener) (value : List Char) :
    listener.listenLine ('d' :: 'a' :: 't' :: 'a' :: ':' :: value ++ ['\n']) =
      { listener with eventQueue := listener.eventQueue ++ [strip isPySpace value] } := by
  have hstrip : strip isPySpace ('d' :: 'a' :: 't' :: 'a' :: ':' :: value ++ ['\n']) =
      'd' :: 'a' :: 't' :: 'a' :: ':' :: value.rdropWhile isPySpace := by
    rw [List.cons_append, strip_cons_of_neg (by decide)]
    simp only [List.cons_append]
    rw [rdropWhile_cons_of_neg (by decide), rdropWhile_cons_of_neg (by decide),
      rdropWhile_cons_of_neg (by decide), rdropWhile_cons_of_neg (by decide),
      List.rdropWhile_concat_pos _ _ _ (by decide)]
  rw [listenLine, hstrip, ← strip_rdropWhile value]
  rfl

theorem eventQueue_foldl_headTexts {texts : List (List Char)} (h : ∀ text ∈ texts,
      ∃ c rest, text = c :: rest ∧ isPySpace c = false ∧ c ≠ 'd') (listener : SseListener) :
    ((texts.map fun text => text ++ ['\n']).foldl listenLine listener).eventQueue =
      listener.eventQueue := by
  induction texts generalizing listener with
  | nil => rfl
  | cons text texts ih =>
      obtain ⟨⟨c, rest, rfl, hspace, hc⟩, htexts⟩ := List.forall_mem_cons.mp h
      rw [List.map_cons, List.foldl_cons, ih htexts, List.cons_append,
        eventQueue_listenLine_of_ne hspace hc]

theorem foldl_dataLines (values : List (List Char)) (listener : SseListener) :
    ((values.map (SseEvent.fieldText ['d', 'a', 't', 'a'])).map fun text => text ++ ['\n']).foldl
        listenLine listener =
      { listener with
        eventQueue := listener.eventQueue ++ values.map (strip isPySpace) } := by
  induction values generalizing listener with
  | nil => simp only [List.map_nil, List.append_nil, List.foldl_nil]
  | cons value values ih =>
      have hline : listener.listenLine (SseEvent.fieldText ['d', 'a', 't', 'a'] value ++ ['\n']) =
          { listener with
            eventQueue := listener.eventQueue ++ [strip isPySpace value] } := by
        rw [← strip_cons_of_pos (show isPySpace ' ' = true by decide)]
        exact listenLine_data listener (' ' :: value)
      rw [List.map_cons, List.map_cons, List.foldl_cons, hline, ih, List.map_cons,
        List.append_assoc, List.singleton_append]

theorem foldl_dataTexts (data : String) (listener : SseListener) :
    ((SseEvent.dataTexts data).map fun text => text ++ ['\n']).foldl listenLine listener =
      { listener with eventQueue := listener.eventQueue ++
          (linesOf '\n' data.toList).map (strip isPySpace) } := by
  rw [SseEvent.dataTexts]
  split
  · next hempty =>
      rw [String.isEmpty_iff.mp hempty, String.toList_empty, linesOf_nil]
      exact listenLine_data listener []
  · exact foldl_dataLines _ listener

theorem eventQueue_listen_format (content : ResponseContent) (codec : JsonCodec)
    (event : SseEvent) (listener : SseListener) :
    (listener.listen content (event.format codec)).eventQueue = listener.eventQueue ++
      (linesOf '\n' (sanitizeSseData codec event.data).toList).map (strip isPySpace) := by
  have hhead : ∀ text ∈ event.headTexts,
      ∃ c rest, text = c :: rest ∧ isPySpace c = false ∧ c ≠ 'd' := by
    intro text htext
    simp only [SseEvent.headTexts, List.mem_append, List.mem_singleton, Option.mem_toList,
      Option.map_eq_some_iff] at htext
    rcases htext with (rfl | ⟨id, -, rfl⟩) | ⟨retry, -, rfl⟩
    · exact ⟨'e', _, rfl, by decide, by decide⟩
    · exact ⟨'i', _, rfl, by decide, by decide⟩
    · exact ⟨'r', _, rfl, by decide, by decide⟩
  rw [listen, SseEvent.toList_format,
    content.byLine _ fun text htext => (SseEvent.noLineEnd_texts htext).noFeed, SseEvent.texts,
    List.map_append, List.map_append, List.foldl_append, List.foldl_append, foldl_dataTexts]
  simp only [List.map_cons, List.map_nil, List.nil_append, List.foldl_cons, List.foldl_nil,
    listenLine_blank, eventQueue_foldl_headTexts hhead]

end SseListener

/-- A text of one line without white space around it. A line end may follow. -/
def OneLine (text : List Char) : Prop :=
  ∃ line ending, text = line ++ ending ∧ NoLineEnd line ∧ Trimmed isPySpace line ∧
    (ending = [] ∨ ending = ['\n'] ∨ ending = ['\r'] ∨ ending = ['\r', '\n'])

/-- Only then do the lines without their white space make up the text that they were read from. -/
theorem map_strip_eq_iff {text : List Char} :
    (linesOf '\n' (normalizeEnds text)).map (strip isPySpace) =
      [(unlines '\n' (linesOf '\n' (normalizeEnds text))).dropLast] ↔ OneLine text := by
  have hsingle : ∀ line : List Char, (unlines '\n' [line]).dropLast = line := by
    intro line
    rw [unlines, List.flatMap_cons, List.flatMap_nil, List.append_nil, List.dropLast_concat]
  constructor
  · intro h
    obtain ⟨line, hlines, hstrip⟩ := List.map_eq_singleton_iff.mp h
    rw [hlines, hsingle, strip_eq_self_iff] at hstrip
    obtain ⟨hfeed, hends⟩ := linesOf_eq_singleton_iff.mp hlines
    rcases hends with hends | hends
    · rw [← List.append_nil line] at hends
      obtain ⟨hreturn, back, rfl, hback⟩ := exists_of_normalizeEnds_eq hfeed hends
      exact ⟨line, back, rfl, ⟨hreturn, hfeed⟩, hstrip, .inl (normalizeEnds_eq_nil_iff.mp hback)⟩
    · obtain ⟨hreturn, back, rfl, hback⟩ := exists_of_normalizeEnds_eq hfeed hends
      exact ⟨line, back, rfl, ⟨hreturn, hfeed⟩, hstrip,
        .inr (normalizeEnds_eq_singleton_iff.mp hback)⟩
  · rintro ⟨line, ending, rfl, hline, htrimmed, hending⟩
    have hlines : linesOf '\n' (normalizeEnds (line ++ ending)) = [line] := by
      rw [linesOf_eq_singleton_iff, normalizeEnds_append hline.noReturn]
      refine ⟨hline.noFeed, ?_⟩
      rcases hending with rfl | hending
      · exact .inl (List.append_nil line)
      · exact .inr (by rw [normalizeEnds_eq_singleton_iff.mpr hending])
    rw [hlines, hsingle, List.map_singleton, strip_eq_self_iff.mpr htrimmed]

/-- What the server sends without being asked to repeat it. -/
inductive SseOutput
  | response (json : String)
  | ping
  | endpoint (url : String)

namespace SseOutput

def text (codec : JsonCodec) (transport : SseTransport) : SseOutput → String
  | response json => (transport.formatResponse codec json).1
  | ping => SseTransport.formatPing codec
  | endpoint url => (transport.formatEndpoint codec url).1

def Agrees (codec : JsonCodec) (content : ResponseContent) (transport : SseTransport)
    (listener : SseListener) (output : SseOutput) : Prop :=
  let enqueued := (listener.listen content (output.text codec transport)).eventQueue
  match output with
  | response json => ∃ data,
      (EventReader.read ((response json).text codec transport).toList).events.map StreamEvent.data =
        [data] ∧ enqueued = listener.eventQueue ++ [data]
  | ping => enqueued = listener.eventQueue
  | endpoint _ => enqueued = listener.eventQueue

/-- Every event but a response of one line without white space around it is misread. -/
theorem agrees_iff (codec : JsonCodec) (content : ResponseContent) (transport : SseTransport)
    (listener : SseListener) (output : SseOutput) :
    output.Agrees codec content transport listener ↔
      ∃ json, output = .response json ∧ OneLine (sanitizeReplayPayload codec json).toList := by
  have hsome : ∀ event : SseEvent, (listener.listen content (event.format codec)).eventQueue ≠
      listener.eventQueue := by
    intro event h
    rw [SseListener.eventQueue_listen_format, List.append_right_eq_self, List.map_eq_nil_iff] at h
    exact linesOf_ne_nil _ _ h
  cases output with
  | response json =>
      have hdata : (sanitizeSseData codec json).toList =
          normalizeEnds (sanitizeReplayPayload codec json).toList :=
        toList_sanitizeSseData codec json
      simp only [Agrees, text, SseTransport.formatResponse, SseTransport.responseText,
        SseTransport.nextId, SseEvent.data_read_format, SseListener.eventQueue_listen_format,
        SseEvent.withId, SseEvent.withRetry, SseEvent.message, hdata, List.append_cancel_left_eq,
        ← map_strip_eq_iff, SseOutput.response.injEq, exists_eq_left', List.cons.injEq, and_true]
  | ping =>
      have hping : ¬ ∃ json, SseOutput.ping = .response json ∧
          OneLine (sanitizeReplayPayload codec json).toList := by
        rintro ⟨json, hping, -⟩
        cases hping
      simp only [Agrees, text, SseTransport.formatPing]
      exact iff_of_false (hsome SseEvent.ping) hping
  | endpoint url =>
      have hendpoint : ¬ ∃ json, SseOutput.endpoint url = .response json ∧
          OneLine (sanitizeReplayPayload codec json).toList := by
        rintro ⟨json, hendpoint, -⟩
        cases hendpoint
      simp only [Agrees, text, SseTransport.formatEndpoint]
      exact iff_of_false (hsome _) hendpoint

/-- JSON on two lines comes out as two messages. -/
theorem splits_response :
    ¬ (SseOutput.response "[1,\n2]").Agrees .reference .reference .new ⟨[], none⟩ := by
  rintro ⟨data, -, hqueue⟩
  have hdata : linesOf '\n' (sanitizeSseData .reference "[1,\n2]").toList =
      [['[', '1', ','], ['2', ']']] := by decide +kernel
  simp only [text, SseTransport.formatResponse, SseTransport.responseText,
    SseListener.eventQueue_listen_format] at hqueue
  rw [show (((SseEvent.message "[1,\n2]").withId _).withRetry _).data = "[1,\n2]" from rfl, hdata]
    at hqueue
  cases hqueue

end SseOutput
end Dcp
