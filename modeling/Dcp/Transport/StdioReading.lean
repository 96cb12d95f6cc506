import Dcp.Transport.Stdio

/-!
What is read from the stdio transport. The parts of the input that the buffer shows do not matter to
the lines, except that a part is taken for text by itself: a line with a character of several bytes
may be cut inside it, and is then refused as if it were no text.
-/

namespace Dcp
open Library
namespace StdioTransport

/-- The line is text within the limit. -/
def Readable (maxSize : Nat) (line : List UInt8) : Prop :=
  line.length ≤ maxSize ∧ ∃ text, utf8 text = line

/-- Some byte of the line is one of several of a character. -/
def Cuttable (line : List UInt8) : Prop := ∃ b ∈ line, 0x80 ≤ b

theorem lineTake_cons (b : UInt8) (available : List UInt8) :
    lineTake (b :: available) = if b = newline then 1 else lineTake available + 1 := by
  rw [lineTake, lineTake, List.findIdx?_cons]
  by_cases hb : b = newline
  · simp [hb]
  · cases hindex : available.findIdx? (· = newline) <;> simp [hb]

theorem lineTake_cases (available : List UInt8) :
    (∃ body others, available = body ++ newline :: others ∧ newline ∉ body ∧
      lineTake available = body.length + 1) ∨
    newline ∉ available ∧ lineTake available = available.length := by
  induction available with
  | nil => exact .inr ⟨List.not_mem_nil, rfl⟩
  | cons b available ih =>
      rw [lineTake_cons]
      by_cases hb : b = newline
      · refine .inl ⟨[], available, by rw [hb, List.nil_append], List.not_mem_nil, if_pos hb⟩
      · rw [if_neg hb]
        rcases ih with ⟨body, others, rfl, hbody, htake⟩ | ⟨hnone, htake⟩
        · exact .inl ⟨b :: body, others, rfl,
            List.not_mem_cons_of_ne_of_not_mem (Ne.symm hb) hbody, congrArg (· + 1) htake⟩
        · exact .inr ⟨List.not_mem_cons_of_ne_of_not_mem (Ne.symm hb) hnone,
            congrArg (· + 1) htake⟩

theorem getLast_newline_iff (s : String) :
    s.toList.getLast? = some '\n' ↔ (utf8 s).getLast? = some newline := by
  rw [utf8_eq_flatMap]
  induction s.toList using List.reverseRecOn with
  | nil => simp
  | append_singleton chars c =>
      rw [List.flatMap_append, List.flatMap_singleton, List.getLast?_concat, Option.some.injEq]
      obtain ⟨hlow, hencode⟩ | ⟨hhigh, lead, others, hmulti⟩ := encodeChar_cases c
      · rw [hencode, List.getLast?_concat, Option.some.injEq]
        constructor
        · rintro rfl
          rfl
        · intro h
          have hnat := congrArg UInt8.toNat h
          rw [UInt8.toNat_ofNat_of_lt' (show _ < 256 by omega)] at hnat
          exact Char.toNat_inj.mp hnat
      · obtain ⟨_, _, _, first, more, rfl, -⟩ := hmulti.reads
        refine iff_of_false ?_ ?_
        · rintro rfl
          exact absurd hhigh (by decide)
        · rw [hmulti.bytes]
          intro h
          have hmem : newline ∈ first :: more := by
            have hlast : (first :: more).getLast? = some newline := by
              simpa [List.getLast?_append] using h
            exact List.mem_of_getLast? hlast
          exact absurd (hmulti.range newline hmem).1 (by decide)

/-- What reading a line makes of the bytes in the buffer and those to come. -/
inductive LineRead (config : StdioConfig) (isShutdown : Bool) (bytes : List UInt8) :
    Except IoError ReadLineOutcome × StdioTransport × BufReader → Prop
  | eof {transport : StdioTransport} {reader : BufReader} (h : bytes = []) :
      LineRead config isShutdown bytes (.ok .eof, transport, reader)
  | line {transport : StdioTransport} {reader : BufReader}
      (hlines : endedLines newline bytes =
        utf8 transport.readBuffer :: endedLines newline reader.rest)
      (hsize : (utf8 transport.readBuffer).length ≤ config.maxMessageSize)
      (hconfig : transport.config = config) (hshutdown : transport.isShutdown = isShutdown) :
      LineRead config isShutdown bytes (.ok .line, transport, reader)
  | refused {e : IoError} {transport : StdioTransport} {reader : BufReader} {line : List UInt8}
      {lines : List (List UInt8)} (hkind : e.kind = .invalidData)
      (hlines : endedLines newline bytes = line :: lines)
      (hline : Readable config.maxMessageSize line → Cuttable line) :
      LineRead config isShutdown bytes (.error e, transport, reader)

theorem exists_piece (reader : BufReader) (h : reader.fillBuf ≠ []) :
    ∃ piece rest, reader.fillBuf.take (lineTake reader.fillBuf) = piece ∧
      reader.rest = piece ++ rest ∧ (reader.consume (lineTake reader.fillBuf)).rest = rest ∧
      piece.length = lineTake reader.fillBuf ∧ piece ≠ [] ∧
      ((∃ body, piece = body ++ [newline] ∧ newline ∉ body) ∨ newline ∉ piece) := by
  have hle := lineTake_le reader.fillBuf
  obtain ⟨more, hrest⟩ := reader.exists_rest_eq
  have hlength : (reader.fillBuf.take (lineTake reader.fillBuf)).length =
      lineTake reader.fillBuf := List.length_take_of_le hle
  refine ⟨_, _, rfl, ?_, BufReader.rest_consume hle, hlength, ?_, ?_⟩
  · rw [hrest, List.drop_append_of_le_length hle, ← List.append_assoc, List.take_append_drop]
  · intro hnil
    have hpos := lineTake_pos h
    rw [hnil, List.length_nil] at hlength
    omega
  · rcases lineTake_cases reader.fillBuf with ⟨body, others, hbody, hnone, hcount⟩ | ⟨hnone, hcount⟩
    · refine .inl ⟨body, ?_, hnone⟩
      rw [hcount, hbody, List.take_append, List.take_of_length_le (Nat.le_succ _),
        Nat.add_sub_cancel_left]
      rfl
    · rw [hcount, List.take_length]
      exact .inr hnone

theorem fromUtf8_error {bytes : List UInt8} {e : Utf8Error} (h : fromUtf8 bytes = .error e) :
    Cuttable bytes := by
  by_contra hascii
  obtain ⟨s, rfl⟩ := exists_utf8_of_ascii fun b hb => UInt8.not_le.mp fun hhigh =>
    hascii ⟨b, hb, hhigh⟩
  rw [fromUtf8_utf8] at h
  cases h

theorem LineRead.refused_front {config : StdioConfig} {isShutdown : Bool} {front : List UInt8}
    (hfront : newline ∉ front.dropLast) (hne : front ≠ []) (rest : List UInt8) {e : IoError}
    (hkind : e.kind = .invalidData) (transport : StdioTransport) (reader : BufReader)
    (hline : ∀ more, Readable config.maxMessageSize (front ++ more) → Cuttable (front ++ more)) :
    LineRead config isShutdown (front ++ rest) (.error e, transport, reader) := by
  obtain ⟨more, lines, hlines⟩ := endedLines_of_dropLast hfront hne rest
  exact .refused hkind hlines (hline more)

/-- A buffer and a piece of a line behind it hold a line end at the end only. -/
theorem not_mem_dropLast {front piece : List UInt8} (hfront : newline ∉ front)
    (hpiece : (∃ body, piece = body ++ [newline] ∧ newline ∉ body) ∨ newline ∉ piece) :
    newline ∉ (front ++ piece).dropLast := by
  rcases hpiece with ⟨body, rfl, hbody⟩ | hpiece
  · rw [← List.append_assoc, List.dropLast_concat, List.mem_append, not_or]
    exact ⟨hfront, hbody⟩
  · intro hmem
    exact (List.mem_append.mp (List.mem_of_mem_dropLast hmem)).elim hfront hpiece

theorem readLineBounded_spec (transport : StdioTransport) (reader : BufReader)
    (hbuffer : newline ∉ utf8 transport.readBuffer)
    (hsize : (utf8 transport.readBuffer).length ≤ transport.config.maxMessageSize) :
    LineRead transport.config transport.isShutdown (utf8 transport.readBuffer ++ reader.rest)
      (readLineBounded transport reader) := by
  fun_induction readLineBounded transport reader with
  | case1 transport reader available hshown =>
      have hrest : reader.rest = [] := reader.fillBuf_eq_nil_iff.mp hshown
      rw [hrest, List.append_nil]
      cases hempty : transport.readBuffer.isEmpty with
      | true =>
          rw [String.isEmpty_iff] at hempty
          rw [hempty]
          exact .eof rfl
      | false =>
          refine .line ?_ hsize rfl rfl
          rw [hrest]
          refine endedLines_eq_singleton hbuffer fun hnil => ?_
          rw [utf8_injective (hnil.trans (show [] = utf8 "" from rfl))] at hempty
          cases hempty
  | case2 transport reader _ hshown _ _ hlong | case3 transport reader _ hshown _ _ hlong =>
      obtain ⟨piece, rest, -, hrest, -, hlength, hne, hpiece⟩ := exists_piece reader hshown
      rw [hrest, ← List.append_assoc]
      refine .refused_front (not_mem_dropLast hbuffer hpiece) (by simp [hne]) rest rfl _ _ ?_
      intro more hreadable
      have hmore := hreadable.1
      have hover : transport.config.maxMessageSize <
        transport.readBuffer.utf8ByteSize + lineTake reader.fillBuf := hlong
      rw [utf8ByteSize_eq] at hover
      simp only [List.length_append] at hmore
      omega
  | case4 transport reader _ hshown _ _ _ e herror =>
      obtain ⟨piece, rest, rfl, hrest, -, -, hne, hpiece⟩ := exists_piece reader hshown
      rw [hrest, ← List.append_assoc]
      refine .refused_front (not_mem_dropLast hbuffer hpiece) (by simp [hne]) rest rfl _ _ ?_
      intro more _
      obtain ⟨b, hb, hhigh⟩ := fromUtf8_error herror
      exact ⟨b, List.mem_append_left _ (List.mem_append_right _ hb), hhigh⟩
  | case5 transport reader _ hshown _ _ hlong text htext _ hlast =>
      obtain ⟨piece, rest, hshow, hrest, hnext, hlength, hne, hpiece⟩ := exists_piece reader hshown
      have hbytes : utf8 (transport.readBuffer ++ text) = utf8 transport.readBuffer ++ piece := by
        rw [utf8_append, utf8_of_fromUtf8 htext, ← hshow]
      have hend := List.mem_of_getLast? ((getLast_newline_iff _).mp hlast)
      obtain ⟨body, rfl, hbody⟩ : ∃ body, piece = body ++ [newline] ∧ newline ∉ body := by
        refine hpiece.resolve_right fun hnone => ?_
        rw [hbytes, List.mem_append] at hend
        exact hend.elim hbuffer hnone
      refine .line ?_ ?_ rfl rfl
      · have hfront : newline ∉ utf8 transport.readBuffer ++ body := fun hmem =>
          (List.mem_append.mp hmem).elim hbuffer hbody
        have hlines := endedLines_append hfront rest
        rw [hbytes, hrest, hnext]
        simpa only [List.append_assoc, List.singleton_append] using hlines
      · have hfits : transport.readBuffer.utf8ByteSize + lineTake reader.fillBuf ≤
          transport.config.maxMessageSize := Nat.not_lt.mp hlong
        rw [hbytes, List.length_append, hlength, ← utf8ByteSize_eq]
        exact hfits
  | case6 transport reader _ hshown _ _ hlong text htext _ hlast ih =>
      obtain ⟨piece, rest, hshow, hrest, hnext, hlength, hne, hpiece⟩ := exists_piece reader hshown
      have hbytes : utf8 (transport.readBuffer ++ text) = utf8 transport.readBuffer ++ piece := by
        rw [utf8_append, utf8_of_fromUtf8 htext, ← hshow]
      have hnone : newline ∉ piece := by
        refine hpiece.resolve_left ?_
        rintro ⟨body, rfl, -⟩
        refine hlast ((getLast_newline_iff _).mpr ?_)
        rw [hbytes, ← List.append_assoc, List.getLast?_concat]
      have hspec := ih ?_ ?_
      · rw [hbytes, List.append_assoc, hnext, ← hrest] at hspec
        exact hspec
      · rw [hbytes, List.mem_append, not_or]
        exact ⟨hbuffer, hnone⟩
      · have hfits : transport.readBuffer.utf8ByteSize + lineTake reader.fillBuf ≤
          transport.config.maxMessageSize := Nat.not_lt.mp hlong
        rw [hbytes, List.length_append, hlength, ← utf8ByteSize_eq]
        exact hfits

/-- The message of a line; a blank line has none. -/
def lineMessage (text : String) : Option String :=
  if (trimEnd text).isEmpty then none else some (trimEnd text)

/-- What may come of reading lines: the messages, and the error that ended the reading, if one did.
A line that can be read may be refused as well when it can be cut. -/
inductive Reading (maxSize : Nat) :
    List (List UInt8) → List String → Option IoErrorKind → Prop
  | done : Reading maxSize [] [] none
  | line {text : String} {lines : List (List UInt8)} {messages : List String}
      {ending : Option IoErrorKind} (hsize : (utf8 text).length ≤ maxSize)
      (h : Reading maxSize lines messages ending) :
      Reading maxSize (utf8 text :: lines) ((lineMessage text).toList ++ messages) ending
  | refused {line : List UInt8} {lines : List (List UInt8)}
      (h : Readable maxSize line → Cuttable line) :
      Reading maxSize (line :: lines) [] (some .invalidData)

theorem readLineBounded_start (transport : StdioTransport) (reader : BufReader) :
    LineRead transport.config transport.isShutdown reader.rest
      (readLineBounded { transport with readBuffer := "" } reader) :=
  readLineBounded_spec { transport with readBuffer := "" } reader List.not_mem_nil (Nat.zero_le _)

section Line
variable {transport transport' : StdioTransport} {reader reader' : BufReader}

theorem readMessage_eq (hopen : transport.isShutdown = false) :
    readMessage transport reader =
      match readLineBounded { transport with readBuffer := "" } reader with
      | (.error e, transport, reader) => (.error e, transport, reader)
      | (.ok .eof, transport, reader) => (.ok none, { transport with isShutdown := true }, reader)
      | (.ok .line, transport, reader) =>
          match lineMessage transport.readBuffer with
          | none => readMessage transport reader
          | some message => (.ok (some message), transport, reader) := by
  have hnot : ¬ transport.isShutdown = true := Bool.eq_false_iff.mp hopen
  rw [readMessage, if_neg hnot]
  split
  · next heq => rw [heq]
  · next heq => rw [heq]
  · next heq =>
      simp only [heq, lineMessage]
      split <;> rfl

theorem readMessages_eq :
    readMessages transport reader =
      match readMessage transport reader with
      | (.error e, _, _) => ([], some e.kind)
      | (.ok none, _, _) => ([], none)
      | (.ok (some message), transport, reader) =>
          (message :: (readMessages transport reader).1, (readMessages transport reader).2) := by
  rw [readMessages]
  split <;>
  · next heq => rw [heq]

theorem readMessages_eof (hopen : transport.isShutdown = false)
    (hline : readLineBounded { transport with readBuffer := "" } reader =
      (.ok .eof, transport', reader')) : readMessages transport reader = ([], none) := by
  rw [readMessages_eq, readMessage_eq hopen, hline]

theorem readMessages_error {e : IoError} (hopen : transport.isShutdown = false)
    (hline : readLineBounded { transport with readBuffer := "" } reader =
      (.error e, transport', reader')) :
    readMessages transport reader = ([], some e.kind) := by
  rw [readMessages_eq, readMessage_eq hopen, hline]

theorem readMessages_line (hopen : transport.isShutdown = false)
    (hline : readLineBounded { transport with readBuffer := "" } reader =
      (.ok .line, transport', reader')) :
    readMessages transport reader =
      ((lineMessage transport'.readBuffer).toList ++ (readMessages transport' reader').1,
        (readMessages transport' reader').2) := by
  rw [readMessages_eq, readMessage_eq hopen, hline]
  cases hmessage : lineMessage transport'.readBuffer with
  | none => simp only [hmessage, ← readMessages_eq, Option.toList_none, List.nil_append]
  | some message => simp only [hmessage, Option.toList_some, List.singleton_append]

end Line

theorem readMessages_spec {transport : StdioTransport} {reader : BufReader}
    (hopen : transport.isShutdown = false) :
    Reading transport.config.maxMessageSize (endedLines newline reader.rest)
      (readMessages transport reader).1 (readMessages transport reader).2 := by
  induction hlength : reader.rest.length using Nat.strong_induction_on
    generalizing transport reader with
  | _ length ih =>
      have hspec := readLineBounded_start transport reader
      generalize hline :
        readLineBounded { transport with readBuffer := "" } reader = result at hspec
      cases hspec with
      | eof hnil =>
          rw [readMessages_eof hopen hline, hnil]
          exact .done
      | refused hkind hlines hrefused =>
          rw [readMessages_error hopen hline, hlines, hkind]
          exact .refused hrefused
      | line hlines hsize hconfig hshutdown =>
          have hless := rest_lt_of_readLineBounded rfl hline
          have hrest := ih _ (hlength ▸ hless) (hshutdown.trans hopen) rfl
          rw [hconfig] at hrest
          rw [readMessages_line hopen hline, hlines]
          exact .line hsize hrest

theorem lineTake_append {body : List UInt8} (h : newline ∉ body) (others : List UInt8) :
    lineTake (body ++ newline :: others) = body.length + 1 := by
  induction body with
  | nil => rw [List.nil_append, lineTake_cons, if_pos rfl, List.length_nil]
  | cons b body ih =>
      have hb := List.ne_of_not_mem_cons h
      rw [List.cons_append, lineTake_cons, if_neg hb.symm, ih (List.not_mem_of_not_mem_cons h),
        List.length_cons]

theorem lineTake_of_not_mem {available : List UInt8} (h : newline ∉ available) :
    lineTake available = available.length := by
  rcases lineTake_cases available with ⟨body, others, rfl, -, -⟩ | ⟨-, hlength⟩
  · exact absurd (List.mem_append_right body List.mem_cons_self) h
  · exact hlength

section Shown
variable {transport : StdioTransport} {reader : BufReader} {text : String}
  {lines : List (List UInt8)}

theorem readLineBounded_first {piece : List UInt8} (hne : reader.fillBuf ≠ [])
    (hpiece : reader.fillBuf.take (lineTake reader.fillBuf) = piece)
    (hsize : piece.length ≤ transport.config.maxMessageSize) :
    readLineBounded { transport with readBuffer := "" } reader =
      match fromUtf8 piece with
      | .error _ => (.error invalidUtf8, { transport with readBuffer := "" }, reader)
      | .ok text =>
          if text.toList.getLast? = some '\n' then
            (.ok .line, { transport with readBuffer := text }, reader.consume piece.length)
          else
            readLineBounded { transport with readBuffer := text }
              (reader.consume piece.length) := by
  have hlength : piece.length = lineTake reader.fillBuf := by
    rw [← hpiece, List.length_take_of_le (lineTake_le _)]
  rw [← hlength] at hpiece
  have hfits : ¬ "".utf8ByteSize + lineTake reader.fillBuf > transport.config.maxMessageSize := by
    rw [← hlength]
    simpa using hsize
  rw [readLineBounded, dif_neg hne]
  simp only [if_neg hfits]
  rw [← hlength, hpiece]
  cases fromUtf8 piece with
  | error => rfl
  | ok text =>
      dsimp only
      rw [String.empty_append]

theorem readLineBounded_whole (hlines : endedLines newline reader.rest = utf8 text :: lines)
    (hsize : (utf8 text).length ≤ transport.config.maxMessageSize)
    (hshown : ∃ more, reader.fillBuf = utf8 text ++ more) :
    readLineBounded { transport with readBuffer := "" } reader =
      (.ok .line, { transport with readBuffer := text }, reader.consume (utf8 text).length) := by
  obtain ⟨more, hfill⟩ := hshown
  have hne : reader.fillBuf ≠ [] := by
    rw [Ne, reader.fillBuf_eq_nil_iff]
    intro hnil
    rw [hnil] at hlines
    cases hlines
  rcases endedLines_eq_cons hlines with ⟨body, rest, hline, hbody, -, -⟩ | ⟨hnone, hline, -⟩
  · have hpiece : reader.fillBuf.take (lineTake reader.fillBuf) = utf8 text := by
      have hend : body ++ newline :: more = utf8 text ++ more := by simp [hline]
      have hlength : body.length + 1 = (utf8 text).length := by simp [hline]
      rw [hfill, ← hend, lineTake_append hbody, hend, hlength, List.take_left]
    have hlast : text.toList.getLast? = some '\n' := by
      rw [getLast_newline_iff, hline, List.getLast?_concat]
    rw [readLineBounded_first hne hpiece hsize, fromUtf8_utf8]
    exact if_pos hlast
  · have hall : reader.fillBuf = utf8 text := by
      obtain ⟨others, hrest⟩ := reader.exists_rest_eq
      rw [← hline, hfill, List.append_assoc] at hrest
      rw [hfill, (List.append_eq_nil_iff.mp (List.self_eq_append_right.mp hrest)).1,
        List.append_nil]
    have hpiece : reader.fillBuf.take (lineTake reader.fillBuf) = utf8 text := by
      rw [hall, lineTake_of_not_mem (hline ▸ hnone), List.take_length]
    have hlast : ¬ text.toList.getLast? = some '\n' := by
      rw [getLast_newline_iff, hline]
      exact fun hlast => hnone (List.mem_of_getLast? hlast)
    have hempty : text.isEmpty = false := by
      rw [Bool.eq_false_iff, Ne, String.isEmpty_iff]
      rintro rfl
      exact hne hall
    have hover : (reader.consume (utf8 text).length).fillBuf = [] := by
      rw [BufReader.fillBuf_eq_nil_iff, BufReader.rest_consume (by rw [hall]), hline,
        List.drop_length]
    rw [readLineBounded_first hne hpiece hsize, fromUtf8_utf8]
    simp only [if_neg hlast]
    rw [readLineBounded, dif_pos hover, hempty]
    rfl

/-- A line that is cut behind the first byte of a character of several bytes is refused. -/
theorem readLineBounded_cut {front : List UInt8} {b : UInt8}
    (hfront : ∀ b ∈ front, b < 0x80) (hb : 0x80 ≤ b) (hend : newline ∉ front)
    (hsize : front.length + 1 ≤ transport.config.maxMessageSize)
    (hfill : reader.fillBuf = front ++ [b]) :
    readLineBounded { transport with readBuffer := "" } reader =
      (.error invalidUtf8, { transport with readBuffer := "" }, reader) := by
  have hnewline : newline ∉ front ++ [b] := by
    rw [List.mem_append, List.mem_singleton, not_or]
    refine ⟨hend, ?_⟩
    rintro rfl
    exact absurd hb (by decide)
  have hpiece : reader.fillBuf.take (lineTake reader.fillBuf) = front ++ [b] := by
    rw [hfill, lineTake_of_not_mem hnewline, List.take_length]
  have hne : reader.fillBuf ≠ [] := by simp [hfill]
  rw [readLineBounded_first hne hpiece (by simpa using hsize)]
  cases htext : fromUtf8 (front ++ [b]) with
  | error e => rfl
  | ok text => exact absurd (utf8_of_fromUtf8 htext) (utf8_ne_of_lone_byte hfront hb text)

end Shown

end StdioTransport
end Dcp
