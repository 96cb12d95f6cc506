import Dcp.Transport.StdioReading

/-!
Progress of reading. A call looks at the part of the line that is shown, as far as the limit lets
it, before it consumes anything: if these bytes are no text, it fails and leaves the input as it
was, and every further call fails in the same way.
-/

namespace Dcp
open Library
namespace StdioTransport

def firstPiece (maxSize : Nat) (reader : BufReader) : List UInt8 :=
  reader.fillBuf.take (min (lineTake reader.fillBuf) maxSize)

/-- The call takes bytes from the input, or it shuts the transport down. -/
def Progresses (transport : StdioTransport) (reader : BufReader) : Prop :=
  (readMessage transport reader).2.2.rest.length < reader.rest.length ∨
    (readMessage transport reader).2.1.isShutdown = true

variable {transport : StdioTransport} {reader : BufReader}

theorem length_readMessage_le (transport : StdioTransport) (reader : BufReader) :
    (readMessage transport reader).2.2.rest.length ≤ reader.rest.length := by
  fun_induction readMessage transport reader with
  | case1 => exact Nat.le_refl _
  | case2 transport reader _ _ _ _ hline =>
      have hle := length_readLineBounded_le { transport with readBuffer := "" } reader
      rwa [hline] at hle
  | case3 transport reader _ _ _ hline =>
      have hle := length_readLineBounded_le { transport with readBuffer := "" } reader
      rwa [hline] at hle
  | case4 _ _ _ _ _ hline _ _ ih => exact ih.trans (rest_lt_of_readLineBounded rfl hline).le
  | case5 _ _ _ _ _ hline => exact (rest_lt_of_readLineBounded rfl hline).le

/-- Past the limit, the bytes that still fit are taken for text. -/
theorem firstPiece_of_long {maxSize : Nat} (h : maxSize < lineTake reader.fillBuf) :
    firstPiece maxSize reader =
      reader.fillBuf.take (min (maxSize - "".utf8ByteSize) reader.fillBuf.length) := by
  have hle := lineTake_le reader.fillBuf
  have hempty : "".utf8ByteSize = 0 := rfl
  rw [firstPiece, hempty, Nat.sub_zero, Nat.min_eq_right h.le, Nat.min_eq_left (h.le.trans hle)]

theorem firstPiece_of_fits {maxSize : Nat} (h : ¬ maxSize < lineTake reader.fillBuf) :
    firstPiece maxSize reader = reader.fillBuf.take (lineTake reader.fillBuf) := by
  rw [firstPiece, Nat.min_eq_left (Nat.not_lt.mp h)]

theorem readLineBounded_stuck (hempty : transport.readBuffer = "") (hshown : reader.fillBuf ≠ [])
    (hpiece : ¬ ∃ text, utf8 text = firstPiece transport.config.maxMessageSize reader) :
    readLineBounded transport reader = (.error invalidUtf8, transport, reader) := by
  obtain ⟨e, he⟩ := (fromUtf8_error_iff _).mpr hpiece
  have hsize : "".utf8ByteSize + lineTake reader.fillBuf = lineTake reader.fillBuf := Nat.zero_add _
  rw [readLineBounded, dif_neg hshown]
  simp only [hempty, hsize, gt_iff_lt]
  by_cases hlong : transport.config.maxMessageSize < lineTake reader.fillBuf
  · rw [firstPiece_of_long hlong] at he
    rw [if_pos hlong, he]
  · rw [firstPiece_of_fits hlong] at he
    rw [if_neg hlong, he]

/-- With a text in front bytes are consumed, also when the line turns out to be too long. -/
theorem readLineBounded_advances (hempty : transport.readBuffer = "") (hshown : reader.fillBuf ≠ [])
    (hpiece : ∃ text, utf8 text = firstPiece transport.config.maxMessageSize reader) :
    (readLineBounded transport reader).2.2.rest.length < reader.rest.length ∨
      (readLineBounded transport reader).1 = .error tooLarge ∧
        (readLineBounded transport reader).2.1.isShutdown = true := by
  obtain ⟨text, htext⟩ := hpiece
  have hok : fromUtf8 (firstPiece transport.config.maxMessageSize reader) = .ok text := by
    rw [← htext, fromUtf8_utf8]
  have hsize : "".utf8ByteSize + lineTake reader.fillBuf = lineTake reader.fillBuf := Nat.zero_add _
  have hless := length_consume_lt hshown
  rw [readLineBounded, dif_neg hshown]
  simp only [hempty, hsize, gt_iff_lt]
  by_cases hlong : transport.config.maxMessageSize < lineTake reader.fillBuf
  · rw [firstPiece_of_long hlong] at hok
    rw [if_pos hlong, hok]
    exact .inr ⟨rfl, rfl⟩
  · rw [firstPiece_of_fits hlong] at hok
    rw [if_neg hlong, hok]
    left
    dsimp only
    split
    · exact hless
    · exact (length_readLineBounded_le _ _).trans_lt hless

/-- A call that finds no text in front can be repeated without end. -/
theorem readMessage_stuck (hopen : transport.isShutdown = false) (hshown : reader.fillBuf ≠ [])
    (hpiece : ¬ ∃ text, utf8 text = firstPiece transport.config.maxMessageSize reader) :
    readMessage transport reader =
      (.error invalidUtf8, { transport with readBuffer := "" }, reader) := by
  have hline : readLineBounded { transport with readBuffer := "" } reader =
      (.error invalidUtf8, { transport with readBuffer := "" }, reader) :=
    readLineBounded_stuck rfl hshown hpiece
  rw [readMessage_eq hopen, hline]

theorem progresses_of_text (hopen : transport.isShutdown = false) (hshown : reader.fillBuf ≠ [])
    (hpiece : ∃ text, utf8 text = firstPiece transport.config.maxMessageSize reader) :
    Progresses transport reader := by
  let transport' := { transport with readBuffer := "" }
  have hempty : transport'.readBuffer = "" := rfl
  have hadvances := readLineBounded_advances hempty hshown hpiece
  change _ ∨ (readLineBounded { transport with readBuffer := "" } reader).1 = _ ∧ _ at hadvances
  unfold Progresses
  rw [readMessage_eq hopen]
  generalize readLineBounded { transport with readBuffer := "" } reader = result at hadvances
  obtain ⟨outcome, transport', reader'⟩ := result
  match outcome with
  | .error e => exact hadvances.imp_right And.right
  | .ok .eof => exact .inr rfl
  | .ok .line =>
      have hless : reader'.rest.length < reader.rest.length :=
        hadvances.resolve_right fun h => nomatch h.1
      left
      dsimp only
      split
      · exact (length_readMessage_le _ _).trans_lt hless
      · exact hless

def afterCalls (transport : StdioTransport) (reader : BufReader) :
    Nat → StdioTransport × BufReader
  | 0 => (transport, reader)
  | n + 1 =>
      let (_, transport, reader) := readMessage transport reader
      afterCalls transport reader n

/-- Reading on after the errors sees the same input for ever. -/
theorem afterCalls_stuck (hopen : transport.isShutdown = false) (hshown : reader.fillBuf ≠ [])
    (hpiece : ¬ ∃ text, utf8 text = firstPiece transport.config.maxMessageSize reader) (n : Nat) :
    (afterCalls transport reader n).2 = reader ∧
      (afterCalls transport reader n).1.isShutdown = false := by
  induction n generalizing transport with
  | zero => exact ⟨rfl, hopen⟩
  | succ n ih =>
      rw [afterCalls, readMessage_stuck hopen hshown hpiece]
      exact @ih { transport with readBuffer := "" } hopen hpiece

theorem readMessage_progresses_iff (hopen : transport.isShutdown = false)
    (hunread : reader.rest ≠ []) :
    Progresses transport reader ↔
      ∃ text, utf8 text = firstPiece transport.config.maxMessageSize reader := by
  have hshown : reader.fillBuf ≠ [] := mt reader.fillBuf_eq_nil_iff.mp hunread
  constructor
  · intro hprogress
    by_contra hpiece
    rw [Progresses, readMessage_stuck hopen hshown hpiece] at hprogress
    rcases hprogress with hless | hshutdown
    · exact Nat.lt_irrefl _ hless
    · exact absurd (hopen.symm.trans hshutdown) Bool.false_ne_true
  · exact progresses_of_text hopen hshown

theorem readMessage_progresses_ping :
    Progresses (withConfig {}) (.ofChunks [utf8 "ping"]) ↔
      ∃ text, utf8 text = firstPiece (10 * 1024 * 1024) (.ofChunks [utf8 "ping"]) :=
  readMessage_progresses_iff rfl (by rw [BufReader.rest_ofChunks_singleton]; decide)

/-- A byte that starts no character is never read past. -/
theorem readMessage_spins :
    let transport := withConfig {}
    let reader := BufReader.ofChunks [[0xFF, newline]]
    (transport.isShutdown = false ∧ 1 ≤ transport.config.maxMessageSize ∧ reader.rest ≠ []) ∧
      (readMessage transport reader).1 = .error invalidUtf8 ∧ ¬ Progresses transport reader ∧
        ∀ n, (afterCalls transport reader n).2 = reader := by
  intro transport reader
  have hfill : reader.fillBuf = [0xFF, newline] := BufReader.fillBuf_ofChunks (by decide) []
  have hshown : reader.fillBuf ≠ [] := by
    rw [hfill]
    decide
  have hpiece : ¬ ∃ text, utf8 text = firstPiece transport.config.maxMessageSize reader := by
    rw [← fromUtf8_error_iff, firstPiece, hfill]
    exact ⟨⟨0, some 1⟩, by decide⟩
  have hstuck : readMessage transport reader =
      (.error invalidUtf8, { transport with readBuffer := "" }, reader) :=
    readMessage_stuck rfl hshown hpiece
  refine ⟨⟨rfl, by decide, mt reader.fillBuf_eq_nil_iff.mpr hshown⟩, ?_, ?_, fun n =>
    (afterCalls_stuck rfl hshown hpiece n).1⟩
  · rw [hstuck]
  · rw [Progresses, hstuck]
    rintro (hless | hshutdown)
    · exact Nat.lt_irrefl _ hless
    · cases hshutdown

end StdioTransport
end Dcp
