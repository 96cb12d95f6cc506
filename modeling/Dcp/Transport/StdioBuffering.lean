import Dcp.Transport.StdioReading

/-!
When it makes a difference what the buffer of the stdio transport shows at a time, and when what was
written is read back. Only the lines matter that can be cut inside a character.
-/

namespace Dcp
open Library
namespace StdioTransport

/-- What is read from the lines when the buffer shows each of them whole. -/
def uncut (maxSize : Nat) : List (List UInt8) → List String × Option IoErrorKind
  | [] => ([], none)
  | line :: lines =>
      match fromUtf8 line with
      | .error _ => ([], some .invalidData)
      | .ok text =>
          if line.length ≤ maxSize then
            ((lineMessage text).toList ++ (uncut maxSize lines).1, (uncut maxSize lines).2)
          else ([], some .invalidData)

/-- The line is text within the limit, and has no message. -/
def Blank (maxSize : Nat) (line : List UInt8) : Prop :=
  line.length ≤ maxSize ∧ ∃ text, utf8 text = line ∧ lineMessage text = none

/-- Behind blank lines there is one that is no text within the limit. -/
def Refused (maxSize : Nat) (lines : List (List UInt8)) : Prop :=
  ∃ blanks bad rest, lines = blanks ++ bad :: rest ∧ (∀ line ∈ blanks, Blank maxSize line) ∧
    ¬ Readable maxSize bad

/-- A line that is read, but may be cut inside a character, is followed by nothing that would have
been read. -/
def SafelyCut (maxSize : Nat) (lines : List (List UInt8)) : Prop :=
  ∀ front line back, lines = front ++ line :: back → (∀ line ∈ front, Readable maxSize line) →
    Readable maxSize line → Cuttable line → Refused maxSize (line :: back)

section Uncut
variable {maxSize : Nat} {lines : List (List UInt8)}

theorem uncut_line {text : String} (hsize : (utf8 text).length ≤ maxSize) :
    uncut maxSize (utf8 text :: lines) =
      ((lineMessage text).toList ++ (uncut maxSize lines).1, (uncut maxSize lines).2) := by
  rw [uncut, fromUtf8_utf8]
  exact if_pos hsize

theorem uncut_refused {line : List UInt8} (h : ¬ Readable maxSize line) :
    uncut maxSize (line :: lines) = ([], some .invalidData) := by
  rw [uncut]
  cases htext : fromUtf8 line with
  | error e => rfl
  | ok text => exact if_neg fun hsize => h ⟨hsize, text, utf8_of_fromUtf8 htext⟩

theorem uncut_append {front : List (List UInt8)} (h : ∀ line ∈ front, Readable maxSize line) :
    uncut maxSize (front ++ lines) =
      ((uncut maxSize front).1 ++ (uncut maxSize lines).1, (uncut maxSize lines).2) := by
  induction front with
  | nil => rfl
  | cons line front ih =>
      obtain ⟨⟨hsize, text, rfl⟩, hfront⟩ := List.forall_mem_cons.mp h
      rw [List.cons_append, uncut_line hsize, uncut_line hsize, ih hfront]
      simp only [List.append_assoc]

theorem uncut_eq_refused_iff :
    uncut maxSize lines = ([], some .invalidData) ↔ Refused maxSize lines := by
  induction lines with
  | nil =>
      refine iff_of_false (fun h => by cases h) ?_
      rintro ⟨blanks, bad, rest, hlines, -⟩
      exact absurd hlines (by simp)
  | cons line lines ih =>
      by_cases hread : Readable maxSize line
      · obtain ⟨hsize, text, rfl⟩ := hread
        rw [uncut_line hsize, Prod.mk.injEq, List.append_eq_nil_iff, and_assoc, ← Prod.mk.injEq,
          ih, Option.toList_eq_nil_iff]
        constructor
        · rintro ⟨hblank, blanks, bad, rest, rfl, hblanks, hbad⟩
          exact ⟨utf8 text :: blanks, bad, rest, rfl,
            List.forall_mem_cons.mpr ⟨⟨hsize, text, rfl, hblank⟩, hblanks⟩, hbad⟩
        · rintro ⟨blanks, bad, rest, hlines, hblanks, hbad⟩
          cases blanks with
          | nil =>
              obtain ⟨rfl, -⟩ := List.cons.inj hlines
              exact absurd ⟨hsize, text, rfl⟩ hbad
          | cons blank blanks =>
              obtain ⟨rfl, rfl⟩ := List.cons.inj hlines
              obtain ⟨⟨-, text', htext, hblank⟩, hblanks⟩ := List.forall_mem_cons.mp hblanks
              rw [utf8_injective htext] at hblank
              exact ⟨hblank, blanks, bad, rest, rfl, hblanks, hbad⟩
      · exact iff_of_true (uncut_refused hread) ⟨[], line, lines, rfl, by simp, hread⟩

/-- Without lines that can be cut there is one way to read them. -/
theorem Reading.eq_uncut {messages : List String} {ending : Option IoErrorKind}
    (h : Reading maxSize lines messages ending) (hsafe : SafelyCut maxSize lines) :
    (messages, ending) = uncut maxSize lines := by
  induction h with
  | done => rfl
  | @line text lines messages ending hsize _ ih =>
      have hrest : SafelyCut maxSize lines := by
        intro front line back hlines hfront
        have hread : Readable maxSize (utf8 text) := ⟨hsize, text, rfl⟩
        exact hsafe (utf8 text :: front) line back (congrArg _ hlines)
          (List.forall_mem_cons.mpr ⟨hread, hfront⟩)
      rw [uncut_line hsize, ← ih hrest]
  | @refused line lines hline =>
      by_cases hread : Readable maxSize line
      · exact (uncut_eq_refused_iff.mpr
          (hsafe [] line lines rfl (by simp) hread (hline hread))).symm
      · exact (uncut_refused hread).symm

end Uncut

section Presentation
variable {transport : StdioTransport} {reader : BufReader}

/-- A line that can be read is read if it is shown whole. -/
theorem readMessages_shown {line more : List UInt8} {lines : List (List UInt8)}
    (hopen : transport.isShutdown = false)
    (hlines : endedLines newline reader.rest = line :: lines)
    (hread : Readable transport.config.maxMessageSize line)
    (hfill : reader.fillBuf = line ++ more) :
    ∃ text transport', utf8 text = line ∧ transport'.config = transport.config ∧
      transport'.isShutdown = false ∧
      endedLines newline (reader.consume line.length).rest = lines ∧
      readMessages transport reader =
        ((lineMessage text).toList ++ (readMessages transport' (reader.consume line.length)).1,
          (readMessages transport' (reader.consume line.length)).2) := by
  obtain ⟨hsize, text, rfl⟩ := hread
  have hline := readLineBounded_whole hlines hsize ⟨more, hfill⟩
  have hlength : (utf8 text).length ≤ reader.fillBuf.length := by
    rw [hfill, List.length_append]
    exact Nat.le_add_right _ _
  refine ⟨text, { transport with readBuffer := text }, rfl, rfl, hopen, ?_, ?_⟩
  · rw [BufReader.rest_consume hlength]
    exact endedLines_drop hlines
  · rw [readMessages_line hopen hline]

/-- The lines in front are read when they are shown whole. -/
theorem readMessages_front {front lines : List (List UInt8)} {more : List UInt8}
    (hopen : transport.isShutdown = false)
    (hlines : endedLines newline reader.rest = front ++ lines)
    (hfront : ∀ line ∈ front, Readable transport.config.maxMessageSize line)
    (hfill : reader.fillBuf = front.flatten ++ more) (hmore : more ≠ []) :
    ∃ transport' reader', transport'.config = transport.config ∧ transport'.isShutdown = false ∧
      endedLines newline reader'.rest = lines ∧ reader'.fillBuf = more ∧
      readMessages transport reader =
        ((uncut transport.config.maxMessageSize front).1 ++ (readMessages transport' reader').1,
          (readMessages transport' reader').2) := by
  induction front generalizing transport reader with
  | nil => exact ⟨transport, reader, rfl, hopen, hlines, hfill, rfl⟩
  | cons line front ih =>
      obtain ⟨hread, hothers⟩ := List.forall_mem_cons.mp hfront
      rw [List.flatten_cons, List.append_assoc] at hfill
      obtain ⟨text, transport₁, rfl, hconfig₁, hopen₁, hlines₁, hfirst⟩ :=
        readMessages_shown hopen hlines hread hfill
      have hleft : reader.fillBuf.drop (utf8 text).length = front.flatten ++ more := by
        rw [hfill, List.drop_left]
      have hfill₁ : (reader.consume (utf8 text).length).fillBuf = front.flatten ++ more := by
        rw [BufReader.fillBuf_consume, hleft]
        rw [hleft]
        exact List.append_ne_nil_of_right_ne_nil _ hmore
      obtain ⟨transport', reader', hconfig, hopen', hrest, hlast, hrun⟩ :=
        ih hopen₁ hlines₁ (hconfig₁ ▸ hothers) hfill₁
      refine ⟨transport', reader', hconfig.trans hconfig₁, hopen', hrest, hlast, ?_⟩
      rw [hfirst, hrun, hconfig₁, uncut_line hread.1]
      simp only [List.append_assoc]

/-- A line that cannot be read is refused however it is shown. -/
theorem readMessages_bad {line : List UInt8} {lines : List (List UInt8)}
    (hopen : transport.isShutdown = false)
    (hlines : endedLines newline reader.rest = line :: lines)
    (hbad : ¬ Readable transport.config.maxMessageSize line) :
    readMessages transport reader = ([], some .invalidData) := by
  have hreading := @readMessages_spec transport reader hopen
  rw [hlines] at hreading
  generalize readMessages transport reader = result at hreading
  obtain ⟨messages, ending⟩ := result
  generalize hall : line :: lines = all at hreading
  cases hreading with
  | done => cases hall
  | line hsize =>
      obtain ⟨rfl, -⟩ := List.cons.inj hall
      exact absurd ⟨hsize, _, rfl⟩ hbad
  | refused => rfl

theorem readMessages_nil (hopen : transport.isShutdown = false)
    (hlines : endedLines newline reader.rest = []) :
    readMessages transport reader = ([], none) := by
  have hreading := @readMessages_spec transport reader hopen
  rw [hlines] at hreading
  generalize readMessages transport reader = result at hreading
  obtain ⟨messages, ending⟩ := result
  generalize hall : ([] : List (List UInt8)) = all at hreading
  cases hreading with
  | done => rfl
  | line | refused => cases hall

theorem readMessages_whole (hopen : transport.isShutdown = false)
    (hfill : reader.fillBuf = reader.rest) :
    readMessages transport reader =
      uncut transport.config.maxMessageSize (endedLines newline reader.rest) := by
  induction hlines : endedLines newline reader.rest generalizing transport reader with
  | nil => exact readMessages_nil hopen hlines
  | cons line lines ih =>
      by_cases hread : Readable transport.config.maxMessageSize line
      · have hsplit : reader.fillBuf = line ++ lines.flatten := by
          rw [hfill, ← List.flatten_cons, ← hlines, flatten_endedLines]
        obtain ⟨text, transport', rfl, hconfig, hopen', hlines', hfirst⟩ :=
          readMessages_shown hopen hlines hread hsplit
        have hlength : (utf8 text).length ≤ reader.fillBuf.length := by
          rw [hsplit, List.length_append]
          exact Nat.le_add_right _ _
        have hfill' : (reader.consume (utf8 text).length).fillBuf =
            (reader.consume (utf8 text).length).rest := by
          by_cases hleft : reader.fillBuf.drop (utf8 text).length = []
          · have hrest : (reader.consume (utf8 text).length).rest = [] := by
              rw [BufReader.rest_consume hlength, ← hfill, hleft]
            rw [hrest, BufReader.fillBuf_eq_nil_iff, hrest]
          · rw [BufReader.fillBuf_consume hleft, BufReader.rest_consume hlength, hfill]
        rw [hfirst, ih hopen' hfill' hlines', hconfig, uncut_line hread.1]
      · rw [readMessages_bad hopen hlines hread, uncut_refused hread]

/-- The first byte of a line that is not a character of its own. -/
theorem Cuttable.split {line : List UInt8} (h : Cuttable line) :
    ∃ front b back, line = front ++ b :: back ∧ 0x80 ≤ b ∧ ∀ b ∈ front, b < 0x80 := by
  obtain ⟨b, hfind⟩ : ∃ b, line.find? (0x80 ≤ ·) = some b := by
    obtain ⟨c, hmem, hc⟩ := h
    exact Option.isSome_iff_exists.mp (List.find?_isSome.mpr ⟨c, hmem, decide_eq_true hc⟩)
  obtain ⟨hb, front, back, hline, hfront⟩ := List.find?_eq_some_iff_append.mp hfind
  refine ⟨front, b, back, hline, by simpa using hb, fun low hlow => ?_⟩
  simpa [UInt8.not_le] using hfront low hlow

/-- A line that can be cut is refused when it is cut. -/
theorem readMessages_cut {front back : List UInt8} {b : UInt8} {lines : List (List UInt8)}
    (hopen : transport.isShutdown = false)
    (hlines : endedLines newline reader.rest = (front ++ b :: back) :: lines)
    (hread : Readable transport.config.maxMessageSize (front ++ b :: back))
    (hb : 0x80 ≤ b) (hfront : ∀ b ∈ front, b < 0x80) (hfill : reader.fillBuf = front ++ [b]) :
    readMessages transport reader = ([], some .invalidData) := by
  have hrest : reader.rest = front ++ b :: (back ++ lines.flatten) := by
    have hbytes := @flatten_endedLines _ _ newline reader.rest
    rw [hlines, List.flatten_cons] at hbytes
    simpa using hbytes.symm
  have hend : newline ∉ front := by
    intro hmem
    obtain ⟨body, more, rfl, hbody⟩ := List.eq_append_cons_of_mem hmem
    rw [hrest, List.append_assoc, List.cons_append, endedLines_append hbody] at hlines
    have hlength := congrArg List.length (List.cons.inj hlines).1
    simp only [List.length_append, List.length_cons, List.length_nil] at hlength
    omega
  have hsize : front.length + 1 ≤ transport.config.maxMessageSize := by
    have hline := hread.1
    simp only [List.length_append, List.length_cons] at hline
    omega
  rw [readMessages_error hopen (readLineBounded_cut hfront hb hend hsize hfill)]
  rfl

end Presentation

theorem readMessages_cutting {config : StdioConfig} {bytes : List UInt8}
    {front back : List (List UInt8)} {line : List UInt8}
    (hlines : endedLines newline bytes = front ++ line :: back)
    (hfront : ∀ line ∈ front, Readable config.maxMessageSize line)
    (hread : Readable config.maxMessageSize line) (hcut : Cuttable line) :
    ∃ reader, reader.rest = bytes ∧ readMessages (withConfig config) reader =
      ((uncut config.maxMessageSize front).1, some .invalidData) := by
  obtain ⟨head, b, tail, rfl, hb, hhead⟩ := hcut.split
  have hpart : front.flatten ++ (head ++ [b]) ≠ [] := by simp
  have hrest : (BufReader.ofChunks [front.flatten ++ (head ++ [b]), tail ++ back.flatten]).rest =
      bytes := by
    rw [BufReader.rest_ofChunks, ← @flatten_endedLines _ _ newline bytes, hlines]
    simp
  obtain ⟨transport', reader', hconfig, hopen, hlines', hfill, hmessages⟩ :=
    @readMessages_front (withConfig config) _ front _ _ rfl (hrest ▸ hlines) hfront
      (BufReader.fillBuf_ofChunks hpart _) (by simp)
  have hlast := readMessages_cut hopen hlines' (hconfig ▸ hread) hb hhead hfill
  refine ⟨_, hrest, ?_⟩
  rw [hmessages, hlast, List.append_nil]
  rfl

theorem readMessages_ofChunks_singleton (config : StdioConfig) (bytes : List UInt8) :
    readMessages (withConfig config) (.ofChunks [bytes]) =
      uncut config.maxMessageSize (endedLines newline bytes) := by
  have hrest := BufReader.rest_ofChunks_singleton bytes
  have hfill : (BufReader.ofChunks [bytes]).fillBuf = (BufReader.ofChunks [bytes]).rest := by
    by_cases hnil : bytes = []
    · rw [(BufReader.fillBuf_eq_nil_iff _).mpr (hrest.trans hnil), hrest, hnil]
    · rw [BufReader.fillBuf_ofChunks hnil, hrest]
  rw [readMessages_whole rfl hfill, hrest]
  rfl

theorem readMessages_eq_uncut {config : StdioConfig} {reader : BufReader}
    (h : SafelyCut config.maxMessageSize (endedLines newline reader.rest)) :
    readMessages (withConfig config) reader =
      uncut config.maxMessageSize (endedLines newline reader.rest) :=
  (@readMessages_spec (withConfig config) reader rfl).eq_uncut h

/-- What is read does not depend on the parts the buffer shows, if and only if nothing that would
have been read follows a line that can be cut. -/
theorem readMessages_buffering_iff (config : StdioConfig) (bytes : List UInt8) :
    (∀ reader reader' : BufReader, reader.rest = bytes → reader'.rest = bytes →
      readMessages (withConfig config) reader = readMessages (withConfig config) reader') ↔
      SafelyCut config.maxMessageSize (endedLines newline bytes) := by
  constructor
  · intro h front line back hlines hfront hread hcut
    obtain ⟨reader, hrest, hcutting⟩ := readMessages_cutting hlines hfront hread hcut
    have hwhole := readMessages_ofChunks_singleton config bytes
    rw [h _ reader (BufReader.rest_ofChunks_singleton bytes) hrest, hcutting, hlines,
      uncut_append hfront, Prod.mk.injEq] at hwhole
    obtain ⟨hmessages, hending⟩ := hwhole
    refine uncut_eq_refused_iff.mp (Prod.ext ?_ hending.symm)
    exact List.append_right_eq_self.mp hmessages.symm
  · rintro hsafe reader reader' rfl hrest
    rw [readMessages_eq_uncut hsafe, readMessages_eq_uncut (hrest.symm ▸ hsafe), hrest]

/-- A line with an accent, shown whole or byte by byte. -/
theorem readMessages_buffering_accent :
    ¬ ∀ (config : StdioConfig) (bytes : List UInt8) (reader reader' : BufReader),
      reader.rest = bytes → reader'.rest = bytes →
        readMessages (withConfig config) reader = readMessages (withConfig config) reader' := by
  intro h
  have hlines : endedLines newline [0xC3, 0xA9, 0x0A] = [[0xC3, 0xA9, 0x0A]] := by decide
  have hread : Readable 10 [0xC3, 0xA9, 0x0A] := ⟨by decide, "é\n", by decide⟩
  have hwhole : readMessages (withConfig ⟨10, true⟩) (.ofChunks [[0xC3, 0xA9, 0x0A]]) =
      (["é"], none) := by
    rw [readMessages_ofChunks_singleton, hlines]
    decide
  have hcut : readMessages (withConfig ⟨10, true⟩) (.ofChunks [[0xC3], [0xA9], [0x0A]]) =
      ([], some .invalidData) :=
    @readMessages_cut (withConfig ⟨10, true⟩) (.ofChunks [[0xC3], [0xA9], [0x0A]]) [] [0xA9, 0x0A]
      0xC3 [] rfl hlines hread (by decide) (by simp) rfl
  rw [h _ [0xC3, 0xA9, 0x0A] _ (.ofChunks [[0xC3], [0xA9], [0x0A]]) rfl rfl, hcut] at hwhole
  cases hwhole

section Written
variable {config : StdioConfig} {messages : List String}

/-- What the transport takes as messages, and gives back as they are. -/
structure Sendable (message : String) : Prop where
  nonempty : message.isEmpty = false
  oneLine : '\n' ∉ message.toList
  trimmed : trimEnd message = message

theorem newline_not_mem_utf8 {s : String} (h : '\n' ∉ s.toList) : newline ∉ utf8 s := by
  rw [utf8_eq_flatMap, List.mem_flatMap]
  rintro ⟨c, hc, hmem⟩
  obtain ⟨hlow, hencode⟩ | ⟨-, lead, others, hmulti⟩ := encodeChar_cases c
  · rw [hencode, List.mem_singleton] at hmem
    have hnat := congrArg UInt8.toNat hmem
    rw [UInt8.toNat_ofNat_of_lt' (show _ < 256 by omega)] at hnat
    have hchar : c = '\n' := Char.toNat_inj.mp hnat.symm
    exact h (hchar ▸ hc)
  · rw [hmulti.bytes, List.mem_cons] at hmem
    obtain hmem | hmem := hmem
    · exact absurd hmulti.lead_ge (hmem ▸ by decide)
    · exact absurd (hmulti.range newline hmem).1 (by decide)

theorem Sendable.lineMessage {message : String} (h : Sendable message) :
    lineMessage (message ++ "\n") = some message := by
  have htrim : trimEnd (message ++ "\n") = message := by
    have hline : (message ++ "\n").toList = message.toList ++ ['\n'] := String.toList_append
    have hself := h.trimmed
    rw [trimEnd] at hself ⊢
    rw [hline, List.rdropWhile_concat_pos _ _ _ (by decide), hself]
  rw [StdioTransport.lineMessage, htrim, h.nonempty]
  rfl

theorem writeMessage_ok {transport : StdioTransport} {writer writer' : StdioWriter}
    {message : String} (h : writeMessage transport writer message = (.ok (), writer')) :
    message.utf8ByteSize ≤ transport.config.maxMessageSize ∧
      writer'.written = writer.written ++ (utf8 message ++ [newline]) := by
  rw [writeMessage] at h
  split at h
  · cases h
  split at h
  · cases h
  next hsize =>
    split at h
    · cases h
    · next hwrite =>
        refine ⟨Nat.not_lt.mp hsize, ?_⟩
        have hline : utf8 (message ++ "\n") = utf8 message ++ [newline] := utf8_append message "\n"
        rw [← hline, ← StdioWriter.written_writeAll hwrite]
        split at h
        · exact StdioWriter.written_flush h
        · exact congrArg StdioWriter.written (Prod.mk.inj h).2.symm

theorem writeMessages_ok {transport : StdioTransport} {writer writer' : StdioWriter}
    {messages : List String} (h : writeMessages transport writer messages = (.ok (), writer')) :
    writer'.written = writer.written ++ unlines newline (messages.map utf8) := by
  induction messages generalizing writer with
  | nil =>
      obtain ⟨-, rfl⟩ := Prod.mk.inj h
      exact (List.append_nil _).symm
  | cons message messages ih =>
      rw [writeMessages] at h
      split at h
      · cases h
      · next hfirst =>
          rw [ih h, (writeMessage_ok hfirst).2, List.append_assoc]
          rfl

theorem endedLines_messages (hsend : ∀ message ∈ messages, Sendable message) :
    endedLines newline (unlines newline (messages.map utf8)) =
      messages.map fun message => utf8 (message ++ "\n") := by
  rw [endedLines_unlines, List.map_map]
  · refine List.map_congr_left fun message _ => ?_
    exact (utf8_append message "\n").symm
  · intro text htext
    obtain ⟨message, hmessage, rfl⟩ := List.mem_map.mp htext
    exact newline_not_mem_utf8 (hsend message hmessage).oneLine

theorem endedLines_written {writer : StdioWriter} {faults : List (Option WriteFault)}
    (hsend : ∀ message ∈ messages, Sendable message)
    (hwrite : writeMessages (withConfig config) ⟨[], 0, faults⟩ messages = (.ok (), writer)) :
    endedLines newline writer.written = messages.map fun message => utf8 (message ++ "\n") := by
  rw [writeMessages_ok hwrite, List.nil_append]
  exact endedLines_messages hsend

theorem length_line (message : String) :
    (utf8 (message ++ "\n")).length = message.utf8ByteSize + 1 := by
  rw [utf8_append, List.length_append, utf8ByteSize_eq]
  rfl

/-- Reading gives the messages back when every line is readable. -/
theorem uncut_messages_iff (hsend : ∀ message ∈ messages, Sendable message) :
    uncut config.maxMessageSize (messages.map fun message => utf8 (message ++ "\n")) =
        (messages, none) ↔
      ∀ message ∈ messages, message.utf8ByteSize < config.maxMessageSize := by
  induction messages with
  | nil => simp [uncut]
  | cons message messages ih =>
      obtain ⟨hmessage, hmessages⟩ := List.forall_mem_cons.mp hsend
      rw [List.map_cons, List.forall_mem_cons, ← ih hmessages]
      by_cases hsize : message.utf8ByteSize < config.maxMessageSize
      · rw [uncut_line ((length_line message).trans_le hsize), hmessage.lineMessage, Prod.mk.injEq,
          Prod.ext_iff]
        simp [hsize]
      · refine iff_of_false ?_ fun h => hsize h.1
        rw [uncut_refused]
        · intro h
          cases h
        · intro hread
          have hline := hread.1
          rw [length_line] at hline
          exact hsize hline

theorem ascii_of_all {s : String} (h : s.toList.all (fun c => c.toNat < 128) = true) :
    ∀ c ∈ s.toList, c.toNat < 128 := by
  simpa using h

theorem cuttable_line_iff (message : String) :
    Cuttable (utf8 (message ++ "\n")) ↔ ∃ c ∈ message.toList, 128 ≤ c.toNat := by
  have hline : (message ++ "\n").toList = message.toList ++ ['\n'] := String.toList_append
  rw [Cuttable, exists_utf8_high_iff, hline]
  constructor
  · rintro ⟨c, hc, hhigh⟩
    obtain hc | hc := List.mem_append.mp hc
    · exact ⟨c, hc, hhigh⟩
    · rw [List.mem_singleton.mp hc] at hhigh
      exact absurd hhigh (by decide)
  · rintro ⟨c, hc, hhigh⟩
    exact ⟨c, List.mem_append_left _ hc, hhigh⟩

/-- Where every line could be read, one that can be cut is refused from some buffer. -/
theorem exists_readMessages_cut {bytes line : List UInt8}
    (hread : ∀ line ∈ endedLines newline bytes, Readable config.maxMessageSize line)
    (hmem : line ∈ endedLines newline bytes) (hcut : Cuttable line) :
    ∃ reader, reader.rest = bytes ∧
      (readMessages (withConfig config) reader).2 = some .invalidData := by
  obtain ⟨front, back, hsplit⟩ := List.append_of_mem hmem
  rw [hsplit] at hread
  have hfront : ∀ line ∈ front, Readable config.maxMessageSize line :=
    fun line hline => hread line (List.mem_append_left _ hline)
  have hlast := hread line (List.mem_append_right _ List.mem_cons_self)
  obtain ⟨reader, hrest, hmessages⟩ := readMessages_cutting hsplit hfront hlast hcut
  exact ⟨reader, hrest, by rw [hmessages]⟩

/-- A line in ASCII cannot be cut. -/
theorem safelyCut_lines {lines : List (List UInt8)} {maxSize : Nat}
    (h : ∀ message ∈ messages, ∀ c ∈ message.toList, c.toNat < 128)
    (hlines : lines = messages.map fun message => utf8 (message ++ "\n")) :
    SafelyCut maxSize lines := by
  intro front line back hsplit _ _ hcut
  have hmem : line ∈ lines := by
    rw [hsplit]
    exact List.mem_append_right _ List.mem_cons_self
  rw [hlines] at hmem
  obtain ⟨message, hmessage, rfl⟩ := List.mem_map.mp hmem
  obtain ⟨c, hc, hhigh⟩ := (cuttable_line_iff message).mp hcut
  exact absurd (h message hmessage c hc) (Nat.not_lt.mpr hhigh)

/-- Lines in ASCII that are shorter than the limit are read whatever the buffer shows. -/
theorem readMessages_lines {reader : BufReader} (hsend : ∀ message ∈ messages, Sendable message)
    (h : ∀ message ∈ messages, message.utf8ByteSize < config.maxMessageSize ∧
      ∀ c ∈ message.toList, c.toNat < 128)
    (hlines : endedLines newline reader.rest = messages.map fun message => utf8 (message ++ "\n")) :
    readMessages (withConfig config) reader = (messages, none) := by
  have hascii : ∀ message ∈ messages, ∀ c ∈ message.toList, c.toNat < 128 :=
    fun message hmessage => (h message hmessage).2
  rw [readMessages_eq_uncut (safelyCut_lines hascii hlines), hlines]
  exact (uncut_messages_iff hsend).mpr fun message hmessage => (h message hmessage).1

/-- The messages are read back, whatever the buffer shows, if and only if each is shorter than the
limit and in ASCII. -/
theorem readMessages_written_iff {writer : StdioWriter} {faults : List (Option WriteFault)}
    (hsend : ∀ message ∈ messages, Sendable message)
    (hwrite : writeMessages (withConfig config) ⟨[], 0, faults⟩ messages = (.ok (), writer)) :
    (∀ reader : BufReader, reader.rest = writer.written →
      readMessages (withConfig config) reader = (messages, none)) ↔
      ∀ message ∈ messages, message.utf8ByteSize < config.maxMessageSize ∧
        ∀ c ∈ message.toList, c.toNat < 128 := by
  have hlines := endedLines_written hsend hwrite
  constructor
  · intro h
    have hwhole := readMessages_ofChunks_singleton config writer.written
    rw [h _ (BufReader.rest_ofChunks_singleton _), hlines] at hwhole
    have hsize := (uncut_messages_iff hsend).mp hwhole.symm
    have hread : ∀ line ∈ endedLines newline writer.written,
        Readable config.maxMessageSize line := by
      rw [hlines, List.forall_mem_map]
      exact fun m hm => ⟨(length_line m).trans_le (hsize m hm), m ++ "\n", rfl⟩
    refine fun message hmessage => ⟨hsize message hmessage, ?_⟩
    by_contra hhigh
    have hcut : Cuttable (utf8 (message ++ "\n")) := by
      rw [cuttable_line_iff]
      simpa using hhigh
    have hmem : utf8 (message ++ "\n") ∈ endedLines newline writer.written := by
      rw [hlines]
      exact List.mem_map_of_mem hmessage
    obtain ⟨reader, hrest, hrefused⟩ := exists_readMessages_cut hread hmem hcut
    rw [h reader hrest] at hrefused
    cases hrefused
  · exact fun h reader hrest => readMessages_lines hsend h (hrest ▸ hlines)

/-- Two messages within a limit of five bytes, shown in two parts. -/
theorem readMessages_written_short :
    readMessages (withConfig ⟨5, false⟩) (.ofChunks [utf8 "ab\nc ", utf8 "d\n"]) =
      (["ab", "c d"], none) := by
  have hsend : ∀ message ∈ ["ab", "c d"], Sendable message := by
    rw [List.forall_mem_cons, List.forall_mem_singleton]
    exact ⟨⟨rfl, by decide, by decide⟩, ⟨rfl, by decide, by decide⟩⟩
  have hwrite : writeMessages (withConfig ⟨5, false⟩) ⟨[], 0, []⟩ ["ab", "c d"] =
      (.ok (), ⟨utf8 "ab\nc d\n", 0, []⟩) := rfl
  have hascii : ∀ message ∈ ["ab", "c d"], message.utf8ByteSize < 5 ∧
      ∀ c ∈ message.toList, c.toNat < 128 := by
    rw [List.forall_mem_cons, List.forall_mem_singleton]
    exact ⟨⟨by decide, ascii_of_all rfl⟩, by decide, ascii_of_all rfl⟩
  exact (readMessages_written_iff hsend hwrite).mpr hascii _ rfl

/-- A message as long as the limit is written, and refused. -/
theorem readMessages_written_limit :
    ¬ ∀ (config : StdioConfig) (messages : List String) (writer : StdioWriter)
      (reader : BufReader), (∀ message ∈ messages, Sendable message) →
      writeMessages (withConfig config) ⟨[], 0, []⟩ messages = (.ok (), writer) →
      reader.rest = writer.written →
      readMessages (withConfig config) reader = (messages, none) := by
  intro h
  have hsend : ∀ message ∈ ["hello"], Sendable message := by
    rw [List.forall_mem_singleton]
    exact ⟨rfl, by decide, by decide⟩
  have hwrite : writeMessages (withConfig ⟨5, false⟩) ⟨[], 0, []⟩ ["hello"] =
      (.ok (), ⟨utf8 "hello\n", 0, []⟩) := rfl
  have hread := h ⟨5, false⟩ ["hello"] _ (.ofChunks [utf8 "hello\n"]) hsend hwrite rfl
  have hlines : endedLines newline (utf8 "hello\n") = [utf8 "hello\n"] := by decide
  have hbad := @readMessages_bad (withConfig ⟨5, false⟩) (.ofChunks [utf8 "hello\n"]) _ _ rfl hlines
    fun hreadable => absurd hreadable.1 (by decide)
  rw [hbad] at hread
  cases hread

end Written

end StdioTransport
end Dcp
