import Dcp.Library.Encoding
import Dcp.Library.Lines

/-!
The transports of the TypeScript client over TCP and over a child process. The bytes of an event are
decoded by themselves, so that an event that ends inside a character spoils it.
-/

namespace Dcp
open Library
namespace TypeScript

/-- The characters that `trim` takes away. -/
def isTrimmed (c : Char) : Bool :=
  let n := c.toNat
  (9 ≤ n && n ≤ 13) || n = 0x20 || n = 0xA0 || n = 0x1680 || (0x2000 ≤ n && n ≤ 0x200A) ||
    n = 0x2028 || n = 0x2029 || n = 0x202F || n = 0x205F || n = 0x3000 || n = 0xFEFF

def trim (s : String) : String := String.ofList (strip isTrimmed s.toList)

/-- What the two transports keep of their input. -/
structure LineTransport where
  buffer : String
  hasHandler : Bool

namespace LineTransport

def processBuffer (transport : LineTransport) : List String × LineTransport :=
  let lines := (transport.buffer.toList.splitOn '\n').map String.ofList
  let messages := lines.dropLast.filterMap fun line =>
    if (trim line).isEmpty || !transport.hasHandler then none else some (trim line)
  (messages, { transport with buffer := lines.getLastD "" })

def onData (transport : LineTransport) (data : List UInt8) : List String × LineTransport :=
  processBuffer { transport with buffer := transport.buffer ++ fromUtf8Lossy data }

/-- What the handler is called with while the events come in. -/
def run (transport : LineTransport) : List (List UInt8) → List String
  | [] => []
  | data :: events => (onData transport data).1 ++ run (onData transport data).2 events

end LineTransport

/-- What the handler of a new transport is called with. -/
def TcpTransport.messages (events : List (List UInt8)) : List String :=
  LineTransport.run ⟨"", true⟩ events

def StdioTransport.messages (events : List (List UInt8)) : List String :=
  LineTransport.run ⟨"", true⟩ events

/-- The messages of the lines. -/
def lineMessages (lines : List (List Char)) : List String :=
  lines.filterMap fun line =>
    if strip isTrimmed line = [] then none else some (String.ofList (strip isTrimmed line))

/-- The text that the events are decoded to. -/
def decoded (events : List (List UInt8)) : List Char :=
  events.flatMap fun data => (fromUtf8Lossy data).toList

theorem lineMessages_append (front back : List (List Char)) :
    lineMessages (front ++ back) = lineMessages front ++ lineMessages back := List.filterMap_append

theorem decoded_cons (data : List UInt8) (events : List (List UInt8)) :
    decoded (data :: events) = (fromUtf8Lossy data).toList ++ decoded events := List.flatMap_cons

namespace LineTransport

theorem processBuffer_eq (text : List Char) :
    processBuffer ⟨String.ofList text, true⟩ =
      (lineMessages (text.splitOn '\n').dropLast, ⟨String.ofList (lastPart '\n' text), true⟩) := by
  have hlast : ((text.splitOn '\n').map String.ofList).getLastD "" =
      String.ofList (lastPart '\n' text) := by
    rw [← dropLast_splitOn_append, List.map_append, List.map_singleton, List.getLastD_concat]
  have hmessage : ∀ line : List Char,
      (if (trim (String.ofList line)).isEmpty || !true then none
        else some (trim (String.ofList line))) =
      if strip isTrimmed line = [] then none else some (String.ofList (strip isTrimmed line)) := by
    intro line
    simp [trim, String.isEmpty_iff]
  rw [processBuffer, String.toList_ofList]
  simp only [hlast, ← List.map_dropLast, List.filterMap_map, Function.comp_def, hmessage]
  rfl

/-- The lines are taken from the text as a whole, however it came in. -/
theorem run_eq {buffer : List Char} (h : '\n' ∉ buffer) (events : List (List UInt8)) :
    run ⟨String.ofList buffer, true⟩ events =
      lineMessages ((buffer ++ decoded events).splitOn '\n').dropLast := by
  induction events generalizing buffer with
  | nil => rw [decoded, List.flatMap_nil, List.append_nil, List.splitOn_eq_singleton h]; rfl
  | cons data events ih =>
      have hbuffer : String.ofList buffer ++ fromUtf8Lossy data =
          String.ofList (buffer ++ (fromUtf8Lossy data).toList) := by
        rw [String.ofList_append, String.ofList_toList]
      rw [run, onData, hbuffer, processBuffer_eq]
      simp only
      rw [ih (not_mem_lastPart '\n' _), decoded_cons, ← List.append_assoc,
        splitOn_append '\n' (buffer ++ _) (decoded events),
        List.dropLast_append_of_ne_nil (List.splitOn_ne_nil _ _), lineMessages_append]

end LineTransport

/-- The bytes of some lines. -/
def encodedLines (lines : List String) : List UInt8 := lines.flatMap fun line => utf8 (line ++ "\n")

/-- The bytes come in as these events. -/
structure CutInto (bytes : List UInt8) (events : List (List UInt8)) : Prop where
  whole : events.flatten = bytes
  nonempty : ∀ data ∈ events, data ≠ []

theorem messages_eq (events : List (List UInt8)) :
    TcpTransport.messages events = lineMessages ((decoded events).splitOn '\n').dropLast :=
  LineTransport.run_eq List.not_mem_nil events

/-- Nothing of a replacement character is lost on the way from the text to the messages. -/
theorem count_lineMessages (lines : List (List Char)) :
    ((lineMessages lines).flatMap String.toList).count '\uFFFD' = lines.flatten.count '\uFFFD' := by
  induction lines with
  | nil => rfl
  | cons line lines ih =>
      have hcount : (strip isTrimmed line).count '\uFFFD' = line.count '\uFFFD' :=
        count_strip (by decide) line
      rw [List.flatten_cons, List.count_append, ← ih, ← hcount, lineMessages, List.filterMap_cons]
      split
      · next hempty =>
          split at hempty
          · next hnil => rw [hnil, List.count_nil, Nat.zero_add]; rfl
          · cases hempty
      · next message hsome =>
          split at hsome
          · cases hsome
          · obtain rfl := Option.some.inj hsome
            rw [List.flatMap_cons, List.count_append, String.toList_ofList]
            rfl

theorem count_messages {text : List Char} (h : lastPart '\n' text = []) :
    ((lineMessages (text.splitOn '\n').dropLast).flatMap String.toList).count '\uFFFD' =
      text.count '\uFFFD' := by
  have hparts := dropLast_splitOn_append '\n' text
  have hcount := count_flatten_splitOn (show '\uFFFD' ≠ '\n' by decide) text
  rw [← hparts, List.flatten_append, List.flatten_singleton, h, List.append_nil] at hcount
  rw [count_lineMessages, hcount]

theorem encodedLines_eq (lines : List String) :
    encodedLines lines =
      utf8 (String.ofList (lines.flatMap fun line => line.toList ++ ['\n'])) := by
  induction lines with
  | nil => rfl
  | cons line lines ih =>
      have hline : String.ofList (line.toList ++ ['\n']) = line ++ "\n" := by
        rw [String.ofList_append, String.ofList_toList]
      rw [encodedLines] at ih ⊢
      rw [List.flatMap_cons, List.flatMap_cons, ih, String.ofList_append, hline,
        utf8_append (line ++ "\n")]

/-- In ASCII every part of the bytes is decoded to its part of the text. -/
theorem utf8_decoded {events : List (List UInt8)} (h : ∀ b ∈ events.flatten, b < 0x80) :
    utf8 (String.ofList (decoded events)) = events.flatten := by
  induction events with
  | nil => rfl
  | cons data events ih =>
      rw [List.flatten_cons] at h
      obtain ⟨s, rfl⟩ := exists_utf8_of_ascii fun b hb => h b (List.mem_append_left _ hb)
      rw [decoded_cons, String.ofList_append, String.ofList_toList, utf8_append,
        ih fun b hb => h b (List.mem_append_right _ hb), fromUtf8Lossy_utf8, List.flatten_cons]

theorem CutInto.decoded_eq {text : List Char} {events : List (List UInt8)}
    (h : CutInto (utf8 (String.ofList text)) events) (hascii : ∀ c ∈ text, c.toNat < 128) :
    decoded events = text := by
  have hbytes : ∀ b ∈ events.flatten, b < 0x80 := by
    intro b hb
    rw [h.whole] at hb
    by_contra hhigh
    obtain ⟨c, hc, hnat⟩ := (exists_utf8_high_iff _).mp ⟨b, hb, UInt8.not_lt.mp hhigh⟩
    rw [String.toList_ofList] at hc
    exact absurd (hascii c hc) (Nat.not_lt.mpr hnat)
  have hsame := utf8_injective ((utf8_decoded hbytes).trans h.whole)
  simpa using congrArg String.toList hsame

/-- Two events that meet inside a character have more replacement characters than the text. -/
theorem exists_cut {front back : List Char} {c : Char} (hc : 128 ≤ c.toNat) :
    ∃ events, CutInto (utf8 (String.ofList (front ++ c :: back))) events ∧ ∃ n, 2 ≤ n ∧
      decoded events = front ++ List.replicate n '\uFFFD' ++ back := by
  obtain ⟨hlow, -⟩ | ⟨-, lead, others, hmulti⟩ := encodeChar_cases c
  · exact absurd hlow (Nat.not_lt.mpr hc)
  · have hothers : others ≠ [] := by
      obtain ⟨_, _, _, first, more, rfl, -⟩ := hmulti.reads
      exact List.cons_ne_nil first more
    refine ⟨[utf8 (String.ofList front) ++ [lead], others ++ utf8 (String.ofList back)],
      ⟨?_, ?_⟩, others.length + 1, ?_, ?_⟩
    · rw [utf8_eq_flatMap (String.ofList (front ++ c :: back)), String.toList_ofList,
        List.flatMap_append, List.flatMap_cons, hmulti.bytes, utf8_eq_flatMap, utf8_eq_flatMap]
      simp
    · simp [hothers]
    · exact Nat.succ_le_succ (List.length_pos_iff.mpr hothers)
    · rw [decoded_cons, decoded_cons, fromUtf8Lossy_append, hmulti.fromUtf8Lossy_lead,
        fromUtf8Lossy_trailing hmulti.range, fromUtf8Lossy_utf8]
      simp [decoded, List.replicate_succ]

/-- Behind the end of a line there are only whole lines. -/
theorem lastPart_lines (front : List Char) (lines : List String) :
    lastPart '\n' (front ++ '\n' :: lines.flatMap fun line => line.toList ++ ['\n']) = [] := by
  induction lines using List.reverseRecOn with
  | nil => exact lastPart_concat_self _ front
  | append_singleton lines line =>
      rw [List.flatMap_append, List.flatMap_singleton, ← List.append_assoc, ← List.cons_append,
        ← List.append_assoc]
      exact lastPart_concat_self _ _

/-- Where a character can be cut and all lines are ended, the cutting can be told from the
messages. -/
theorem exists_messages_ne {front back : List Char} {c : Char} (hc : 128 ≤ c.toNat)
    (hback : ∀ before, lastPart '\n' (before ++ back) = []) :
    ∃ events events', CutInto (utf8 (String.ofList (front ++ c :: back))) events ∧
      CutInto (utf8 (String.ofList (front ++ c :: back))) events' ∧
      TcpTransport.messages events ≠ TcpTransport.messages events' := by
  obtain ⟨events, hcut, n, hn, hdecoded⟩ := @exists_cut front back c hc
  have hwhole : decoded [utf8 (String.ofList (front ++ c :: back))] = front ++ c :: back := by
    rw [decoded_cons, fromUtf8Lossy_utf8, String.toList_ofList]
    exact List.append_nil _
  have hne : utf8 (String.ofList (front ++ c :: back)) ≠ [] := by
    intro hnil
    have hempty : String.ofList (front ++ c :: back) = "" := utf8_injective hnil
    simpa using congrArg String.toList hempty
  refine ⟨events, [utf8 (String.ofList (front ++ c :: back))], hcut,
    ⟨List.flatten_singleton, by simpa using hne⟩, fun hsame => ?_⟩
  rw [messages_eq, messages_eq, hwhole, hdecoded] at hsame
  have hcount := congrArg (fun messages => (messages.flatMap String.toList).count '\uFFFD') hsame
  have hended : lastPart '\n' (front ++ c :: back) = [] := by
    rw [List.append_cons]
    exact hback _
  simp only [count_messages (hback _), count_messages hended, List.count_append,
    List.count_replicate_self, List.count_cons] at hcount
  split at hcount <;> omega

theorem messages_cutting_iff (lines : List String) :
    (∀ events events', CutInto (encodedLines lines) events → CutInto (encodedLines lines) events' →
      TcpTransport.messages events = TcpTransport.messages events') ↔
      ∀ line ∈ lines, ∀ c ∈ line.toList, c.toNat < 128 := by
  rw [encodedLines_eq]
  constructor
  · intro h line hline c hc
    by_contra hhigh
    obtain ⟨before, after, rfl⟩ := List.append_of_mem hline
    obtain ⟨front, back, hsplit⟩ := List.append_of_mem hc
    have htext : ((before ++ line :: after).flatMap fun line => line.toList ++ ['\n']) =
        ((before.flatMap fun line => line.toList ++ ['\n']) ++ front) ++ c ::
          (back ++ '\n' :: after.flatMap fun line => line.toList ++ ['\n']) := by
      simp [hsplit]
    rw [htext] at h
    obtain ⟨events, events', hcut, hcut', hne⟩ := exists_messages_ne (Nat.not_lt.mp hhigh)
      fun front => by
        rw [← List.append_assoc]
        exact lastPart_lines (front ++ back) after
    exact hne (h events events' hcut hcut')
  · intro h events events' hcut hcut'
    have hascii : ∀ c ∈ lines.flatMap fun line => line.toList ++ ['\n'], c.toNat < 128 := by
      intro c hc
      obtain ⟨line, hline, hc⟩ := List.mem_flatMap.mp hc
      obtain hc | hc := List.mem_append.mp hc
      · exact h line hline c hc
      · rw [List.mem_singleton.mp hc]
        decide
    rw [messages_eq, messages_eq, hcut.decoded_eq hascii, hcut'.decoded_eq hascii]

/-- The messages do not depend on how the bytes of the lines are cut into events, if and only if the
lines are in ASCII; the two transports do the same. -/
theorem transport_messages_cutting_iff (lines : List String) :
    ((∀ events events', CutInto (encodedLines lines) events →
      CutInto (encodedLines lines) events' →
        TcpTransport.messages events = TcpTransport.messages events') ↔
      ∀ line ∈ lines, ∀ c ∈ line.toList, c.toNat < 128) ∧
    ((∀ events events', CutInto (encodedLines lines) events →
      CutInto (encodedLines lines) events' →
        StdioTransport.messages events = StdioTransport.messages events') ↔
      ∀ line ∈ lines, ∀ c ∈ line.toList, c.toNat < 128) :=
  ⟨messages_cutting_iff lines, messages_cutting_iff lines⟩

/-- An accent whose two bytes come in two events. -/
theorem transport_messages_accent :
    ¬ ∀ lines events events', CutInto (encodedLines lines) events →
      CutInto (encodedLines lines) events' →
        TcpTransport.messages events = TcpTransport.messages events' := by
  intro h
  have hwhole : TcpTransport.messages [[0xC3, 0xA9, 0x0A]] = ["é"] := by decide
  have hcut : TcpTransport.messages [[0xC3], [0xA9, 0x0A]] = ["\uFFFD\uFFFD"] := by decide
  rw [h ["é"] [[0xC3, 0xA9, 0x0A]] [[0xC3], [0xA9, 0x0A]] ⟨by decide, by decide⟩
    ⟨by decide, by decide⟩, hcut] at hwhole
  exact absurd hwhole (by decide)

end TypeScript
end Dcp
