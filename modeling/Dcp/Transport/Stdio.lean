import Dcp.Library.Encoding
import Dcp.Library.Lines
import Dcp.Library.Utf8

/-!
The stdio transport: messages that are written one to a line, and read line by line from whatever
part of the input the buffer shows at a time. A writer may fail at any operation, with a part of it
done; reading the input never does. What is logged is left out.
-/

namespace Dcp
open Library

/-- The kinds that the transport makes itself, and all others. -/
inductive IoErrorKind
  | invalidData | brokenPipe | other
  deriving DecidableEq

structure IoError where
  kind : IoErrorKind
  message : String
  deriving DecidableEq

/-- A buffered reader: the parts of the input still to come, each shown until it is consumed. -/
structure BufReader where
  chunks : List (List UInt8)
  nonempty : ∀ chunk ∈ chunks, chunk ≠ []

namespace BufReader

/-- The input still to come. -/
def rest (reader : BufReader) : List UInt8 := reader.chunks.flatten

/-- The bytes that can be looked at; there are none at the end of the input only. -/
def fillBuf (reader : BufReader) : List UInt8 := reader.chunks.headD []

/-- Go on behind some of the bytes shown. -/
def consume (n : Nat) (reader : BufReader) : BufReader :=
  match reader with
  | ⟨[], nonempty⟩ => ⟨[], nonempty⟩
  | ⟨chunk :: chunks, nonempty⟩ =>
      if h : chunk.drop n = [] then ⟨chunks, (List.forall_mem_cons.mp nonempty).2⟩
      else ⟨chunk.drop n :: chunks,
        List.forall_mem_cons.mpr ⟨h, (List.forall_mem_cons.mp nonempty).2⟩⟩

/-- The input in the parts given; what is empty is not shown. -/
def ofChunks (chunks : List (List UInt8)) : BufReader :=
  ⟨chunks.filter fun chunk => chunk ≠ [], fun _ hchunk =>
    of_decide_eq_true (List.mem_filter.mp hchunk).2⟩

theorem rest_ofChunks (chunks : List (List UInt8)) : (ofChunks chunks).rest = chunks.flatten :=
  List.flatten_filter_ne_nil

theorem rest_ofChunks_singleton (chunk : List UInt8) : (ofChunks [chunk]).rest = chunk := by
  rw [rest_ofChunks, List.flatten_singleton]

theorem fillBuf_ofChunks {chunk : List UInt8} (h : chunk ≠ []) (chunks : List (List UInt8)) :
    (ofChunks (chunk :: chunks)).fillBuf = chunk := by
  simp [ofChunks, fillBuf, h]

theorem exists_rest_eq (reader : BufReader) : ∃ more, reader.rest = reader.fillBuf ++ more :=
  match reader with
  | ⟨[], _⟩ => ⟨[], rfl⟩
  | ⟨_ :: chunks, _⟩ => ⟨chunks.flatten, rfl⟩

theorem fillBuf_eq_nil_iff (reader : BufReader) : reader.fillBuf = [] ↔ reader.rest = [] := by
  obtain ⟨chunks, nonempty⟩ := reader
  cases chunks with
  | nil => exact Iff.rfl
  | cons chunk chunks =>
      have hchunk : chunk ≠ [] := nonempty chunk List.mem_cons_self
      exact iff_of_false hchunk (List.append_ne_nil_of_left_ne_nil hchunk _)

theorem rest_consume {reader : BufReader} {n : Nat} (h : n ≤ reader.fillBuf.length) :
    (reader.consume n).rest = reader.rest.drop n := by
  obtain ⟨chunks, nonempty⟩ := reader
  cases chunks with
  | nil => exact List.drop_nil.symm
  | cons chunk chunks =>
      have hsplit : (chunk ++ chunks.flatten).drop n = chunk.drop n ++ chunks.flatten :=
        List.drop_append_of_le_length h
      rw [consume]
      split
      · next hnil => exact ((congrArg (· ++ _) hnil).symm.trans hsplit.symm)
      · exact hsplit.symm

theorem fillBuf_consume {reader : BufReader} {n : Nat} (h : reader.fillBuf.drop n ≠ []) :
    (reader.consume n).fillBuf = reader.fillBuf.drop n := by
  obtain ⟨chunks, nonempty⟩ := reader
  cases chunks with
  | nil => exact absurd List.drop_nil h
  | cons chunk chunks =>
      have hleft : chunk.drop n ≠ [] := h
      rw [consume, dif_neg hleft]
      rfl

theorem consume_sublist (reader : BufReader) (n : Nat) :
    ((reader.consume n).rest).Sublist reader.rest := by
  obtain ⟨chunks, nonempty⟩ := reader
  cases chunks with
  | nil => exact List.Sublist.refl _
  | cons chunk chunks =>
      rw [consume]
      split
      · exact List.sublist_append_right chunk chunks.flatten
      · exact (List.drop_sublist n chunk).append_right chunks.flatten

end BufReader

/-- The characters of the Unicode property `White_Space`. -/
def isWhitespace (c : Char) : Bool :=
  let n := c.toNat
  (9 ≤ n && n ≤ 13) || n = 32 || n = 0x85 || n = 0xA0 || n = 0x1680 || (0x2000 ≤ n && n ≤ 0x200A) ||
    n = 0x2028 || n = 0x2029 || n = 0x202F || n = 0x205F || n = 0x3000

def trimEnd (s : String) : String := String.ofList (s.toList.rdropWhile isWhitespace)

structure StdioConfig where
  maxMessageSize : Nat := 10 * 1024 * 1024
  autoFlush : Bool := true

structure StdioTransport where
  readBuffer : String
  config : StdioConfig
  isShutdown : Bool

inductive ReadLineOutcome
  | line | eof
  deriving DecidableEq

/-- An operation on a writer that fails when this many bytes of it are done. -/
structure WriteFault where
  taken : Nat
  error : IoError

/-- What was written, how much of it was flushed, and which of the next operations fail; behind
those listed none does. -/
structure StdioWriter where
  written : List UInt8
  flushed : Nat
  faults : List (Option WriteFault)

namespace StdioWriter

/-- What goes wrong with an operation, counted from the next one on. -/
def fault (writer : StdioWriter) (k : Nat) : Option WriteFault := writer.faults[k]?.join

def writeAll (writer : StdioWriter) (bytes : List UInt8) : Except IoError Unit × StdioWriter :=
  match writer.fault 0 with
  | some fault => (.error fault.error,
      ⟨writer.written ++ bytes.take fault.taken, writer.flushed, writer.faults.tail⟩)
  | none => (.ok (), ⟨writer.written ++ bytes, writer.flushed, writer.faults.tail⟩)

def flush (writer : StdioWriter) : Except IoError Unit × StdioWriter :=
  match writer.fault 0 with
  | some fault => (.error fault.error,
      ⟨writer.written, min (writer.flushed + fault.taken) writer.written.length,
        writer.faults.tail⟩)
  | none => (.ok (), ⟨writer.written, writer.written.length, writer.faults.tail⟩)

theorem fault_tail (written : List UInt8) (flushed k : Nat) (faults : List (Option WriteFault)) :
    fault ⟨written, flushed, faults.tail⟩ k = faults[k + 1]?.join :=
  congrArg Option.join List.getElem?_tail

section
variable {writer writer' : StdioWriter} {bytes : List UInt8}

theorem written_writeAll (h : writer.writeAll bytes = (.ok (), writer')) :
    writer'.written = writer.written ++ bytes := by
  unfold writeAll at h
  split at h
  · cases h
  · cases h
    rfl

theorem written_flush (h : writer.flush = (.ok (), writer')) :
    writer'.written = writer.written := by
  unfold flush at h
  split at h
  · cases h
  · cases h
    rfl

end

end StdioWriter

namespace StdioTransport

def withConfig (config : StdioConfig) : StdioTransport := ⟨"", config, false⟩

def invalidUtf8 : IoError := ⟨.invalidData, "Invalid UTF-8 in stdin message"⟩
def tooLarge : IoError := ⟨.invalidData, "Message exceeds maximum size"⟩

def newline : UInt8 := '\n'.toUInt8

/-- How much of the bytes shown belongs to the line: all, or up to the line end. -/
def lineTake (available : List UInt8) : Nat :=
  match available.findIdx? (· = newline) with
  | some index => index + 1
  | none => available.length

theorem lineTake_pos {available : List UInt8} (h : available ≠ []) : 0 < lineTake available := by
  rw [lineTake]
  split
  · exact Nat.succ_pos _
  · exact List.length_pos_iff.mpr h

theorem lineTake_le (available : List UInt8) : lineTake available ≤ available.length := by
  rw [lineTake]
  split
  · next index hindex => exact (List.findIdx?_eq_some_iff_findIdx_eq.mp hindex).1
  · exact Nat.le_refl _

theorem length_consume_lt {reader : BufReader} (h : reader.fillBuf ≠ []) :
    (reader.consume (lineTake reader.fillBuf)).rest.length < reader.rest.length := by
  have htake := lineTake_pos h
  have hrest : reader.rest ≠ [] := mt reader.fillBuf_eq_nil_iff.mpr h
  have hlength := List.length_pos_iff.mpr hrest
  rw [BufReader.rest_consume (lineTake_le _), List.length_drop]
  omega

def readLineBounded (transport : StdioTransport) (reader : BufReader) :
    Except IoError ReadLineOutcome × StdioTransport × BufReader :=
  let available := reader.fillBuf
  if _h : available = [] then
    (.ok (if transport.readBuffer.isEmpty then .eof else .line), transport, reader)
  else
    let take := lineTake available
    let nextLen := transport.readBuffer.utf8ByteSize + take
    if nextLen > transport.config.maxMessageSize then
      let remaining := transport.config.maxMessageSize - transport.readBuffer.utf8ByteSize
      let allowed := min remaining available.length
      let consumeLen := min (allowed + 1) available.length
      match fromUtf8 (available.take allowed) with
      | .error _ => (.error invalidUtf8, transport, reader)
      | .ok _ =>
          (.error tooLarge, { transport with readBuffer := "", isShutdown := true },
            reader.consume consumeLen)
    else
      match fromUtf8 (available.take take) with
      | .error _ => (.error invalidUtf8, transport, reader)
      | .ok text =>
          let transport := { transport with readBuffer := transport.readBuffer ++ text }
          if transport.readBuffer.toList.getLast? = some '\n' then
            (.ok .line, transport, reader.consume take)
          else readLineBounded transport (reader.consume take)
termination_by reader.rest.length
decreasing_by exact length_consume_lt _h

theorem length_readLineBounded_le (transport : StdioTransport) (reader : BufReader) :
    (readLineBounded transport reader).2.2.rest.length ≤ reader.rest.length := by
  fun_induction readLineBounded transport reader with
  | case1 | case2 | case4 => exact Nat.le_refl _
  | case3 transport reader available _ take nextLen _ remaining allowed consumeLen =>
      exact (reader.consume_sublist consumeLen).length_le
  | case5 _ _ _ hshown => exact Nat.le_of_lt (length_consume_lt hshown)
  | case6 _ _ _ hshown _ _ _ _ _ _ _ ih => exact ih.trans (Nat.le_of_lt (length_consume_lt hshown))

/-- A line takes bytes away, if none of it has been read before. -/
theorem length_readLineBounded_lt {transport : StdioTransport} {reader : BufReader}
    (hbuffer : transport.readBuffer.isEmpty = true)
    (h : (readLineBounded transport reader).1 = .ok .line) :
    (readLineBounded transport reader).2.2.rest.length < reader.rest.length := by
  fun_induction readLineBounded transport reader with
  | case1 =>
      rw [if_pos hbuffer] at h
      cases h
  | case2 | case3 | case4 => cases h
  | case5 _ _ _ hshown => exact length_consume_lt hshown
  | case6 _ _ _ hshown =>
      exact (length_readLineBounded_le _ _).trans_lt (length_consume_lt hshown)

theorem rest_lt_of_readLineBounded {transport transport' : StdioTransport}
    {reader reader' : BufReader} (hbuffer : transport.readBuffer.isEmpty = true)
    (h : readLineBounded transport reader = (.ok .line, transport', reader')) :
    reader'.rest.length < reader.rest.length := by
  have hlt := @length_readLineBounded_lt transport reader hbuffer
  rw [h] at hlt
  exact hlt rfl

def readMessage (transport : StdioTransport) (reader : BufReader) :
    Except IoError (Option String) × StdioTransport × BufReader :=
  if transport.isShutdown then (.ok none, transport, reader)
  else
    match _h : readLineBounded { transport with readBuffer := "" } reader with
    | (.error e, transport, reader) => (.error e, transport, reader)
    | (.ok .eof, transport, reader) => (.ok none, { transport with isShutdown := true }, reader)
    | (.ok .line, transport, reader) =>
        let message := trimEnd transport.readBuffer
        if message.isEmpty then readMessage transport reader
        else (.ok (some message), transport, reader)
termination_by reader.rest.length
decreasing_by exact rest_lt_of_readLineBounded rfl _h

def writeMessage (transport : StdioTransport) (writer : StdioWriter) (message : String) :
    Except IoError Unit × StdioWriter :=
  if transport.isShutdown then (.error ⟨.brokenPipe, "transport is shut down"⟩, writer)
  else if message.utf8ByteSize > transport.config.maxMessageSize then (.error tooLarge, writer)
  else
    match writer.writeAll (utf8 (message ++ "\n")) with
    | (.error e, writer) => (.error e, writer)
    | (.ok (), writer) => if transport.config.autoFlush then writer.flush else (.ok (), writer)

/-- The messages that are written one after the other, up to the first that is refused or cannot be
written. -/
def writeMessages (transport : StdioTransport) (writer : StdioWriter) :
    List String → Except IoError Unit × StdioWriter
  | [] => (.ok (), writer)
  | message :: messages =>
      match writeMessage transport writer message with
      | (.error e, writer) => (.error e, writer)
      | (.ok (), writer) => writeMessages transport writer messages

theorem rest_lt_of_readMessage {transport transport' : StdioTransport} {reader reader' : BufReader}
    {message : String}
    (h : readMessage transport reader = (.ok (some message), transport', reader')) :
    reader'.rest.length < reader.rest.length := by
  fun_induction readMessage transport reader with
  | case1 | case2 | case3 => cases h
  | case4 _ _ _ _ _ hline _ _ ih => exact (ih h).trans (rest_lt_of_readLineBounded rfl hline)
  | case5 _ _ _ _ _ hline =>
      rw [Prod.mk.injEq, Prod.mk.injEq] at h
      obtain ⟨-, -, rfl⟩ := h
      exact rest_lt_of_readLineBounded rfl hline

/-- The messages up to the first error or to the end of the input, and the kind of the error if
there is one. -/
def readMessages (transport : StdioTransport) (reader : BufReader) :
    List String × Option IoErrorKind :=
  match _h : readMessage transport reader with
  | (.error e, _, _) => ([], some e.kind)
  | (.ok none, _, _) => ([], none)
  | (.ok (some message), transport, reader) =>
      let (messages, ending) := readMessages transport reader
      (message :: messages, ending)
termination_by reader.rest.length
decreasing_by exact rest_lt_of_readMessage _h

end StdioTransport
end Dcp
