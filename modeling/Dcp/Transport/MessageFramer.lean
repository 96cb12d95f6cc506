import Dcp.Transport.Stdio

/-!
The message framer: bytes that are fed in parts, kept until a line end, and returned as the trimmed
text of the line. A call that meets a line it cannot take fails at that byte and returns nothing. So
the framer delivers the texts of the lines in front of the first line that it cannot take, wherever
the input is cut, but for those in the part that also holds this line.
-/

namespace Dcp
open Library

structure MessageFramer where
  buffer : List UInt8
  maxSize : Nat
  deriving DecidableEq

namespace MessageFramer

def trim (s : String) : String := String.ofList (strip isWhitespace s.toList)

def new : MessageFramer := ⟨[], 10 * 1024 * 1024⟩

def withMaxSize (framer : MessageFramer) (maxSize : Nat) : MessageFramer := { framer with maxSize }

def newline : UInt8 := StdioTransport.newline

/-- The loop over the bytes, with the messages found so far. -/
def feedFrom (framer : MessageFramer) (messages : List String) :
    List UInt8 → Except IoError (List String) × MessageFramer
  | [] => (.ok messages, framer)
  | byte :: data =>
      if byte = newline then
        if framer.buffer = [] then feedFrom framer messages data
        else
          let taken := { framer with buffer := [] }
          match fromUtf8 framer.buffer with
          | .error e => (.error ⟨.invalidData, e.toText⟩, taken)
          | .ok message =>
              let trimmed := trim message
              feedFrom taken (if trimmed.isEmpty then messages else messages ++ [trimmed]) data
      else if framer.buffer.length ≥ framer.maxSize then
        (.error StdioTransport.tooLarge, { framer with buffer := [] })
      else feedFrom { framer with buffer := framer.buffer ++ [byte] } messages data

def feed (framer : MessageFramer) (data : List UInt8) :
    Except IoError (List String) × MessageFramer := framer.feedFrom [] data

/-- What a caller is given by the calls; one that fails gives no messages, and the next one goes
on with the framer as it is then. -/
def returned (framer : MessageFramer) : List (List UInt8) → List String
  | [] => []
  | chunk :: chunks =>
      match framer.feed chunk with
      | (.ok messages, framer) => messages ++ returned framer chunks
      | (.error _, framer) => returned framer chunks

/-- The line is a text within the limit. -/
def isGood (maxSize : Nat) (line : List UInt8) : Bool :=
  line.length ≤ maxSize && (fromUtf8 line).toOption.isSome

/-- The trimmed text of a line; a blank line has none. -/
def lineText (line : List UInt8) : Option String :=
  match fromUtf8 line with
  | .ok message => if (trim message).isEmpty then none else some (trim message)
  | .error _ => none

/-- Among the bytes is a line that is no text or too long; the last one may go on. -/
def MeetsBad (maxSize : Nat) (bytes : List UInt8) : Prop :=
  (∃ line ∈ completeLines newline bytes, isGood maxSize line = false) ∨
    maxSize < (lastPart newline bytes).length

instance (maxSize : Nat) (bytes : List UInt8) : Decidable (MeetsBad maxSize bytes) :=
  inferInstanceAs (Decidable (_ ∨ _))

/-- The texts of the lines that have ended, up to the first that is bad. -/
def expected (maxSize : Nat) (bytes : List UInt8) : List String :=
  ((completeLines newline bytes).takeWhile (isGood maxSize)).filterMap lineText

variable {maxSize : Nat} {seen : List UInt8} {byte : UInt8}

section Bytes

theorem meetsBad_newline (h : ¬ MeetsBad maxSize seen) :
    MeetsBad maxSize (seen ++ [newline]) ↔ isGood maxSize (lastPart newline seen) = false := by
  rw [MeetsBad, not_or] at h
  rw [MeetsBad, completeLines_concat_self, lastPart_concat_self]
  constructor
  · rintro (⟨line, hline, hbad⟩ | hlong)
    · rw [List.mem_append, List.mem_singleton] at hline
      obtain hline | rfl := hline
      · exact absurd ⟨line, hline, hbad⟩ h.1
      · exact hbad
    · exact absurd hlong (Nat.not_lt_zero _)
  · intro hbad
    exact .inl ⟨_, List.mem_append_right _ List.mem_cons_self, hbad⟩

theorem meetsBad_other (hbyte : byte ≠ newline) (h : ¬ MeetsBad maxSize seen) :
    MeetsBad maxSize (seen ++ [byte]) ↔ maxSize ≤ (lastPart newline seen).length := by
  rw [MeetsBad, not_or] at h
  rw [MeetsBad, completeLines_concat_of_ne hbyte, lastPart_concat_of_ne hbyte, List.length_append,
    List.length_singleton, Nat.lt_succ_iff]
  exact or_iff_right h.1

theorem MeetsBad.concat (h : MeetsBad maxSize seen) (byte : UInt8) :
    MeetsBad maxSize (seen ++ [byte]) := by
  by_cases hbyte : byte = newline
  · rw [MeetsBad, hbyte, completeLines_concat_self]
    left
    rcases h with ⟨line, hline, hbad⟩ | hlong
    · exact ⟨line, List.mem_append_left _ hline, hbad⟩
    · refine ⟨_, List.mem_append_right _ List.mem_cons_self, ?_⟩
      rw [isGood, decide_eq_false (Nat.not_le.mpr hlong), Bool.false_and]
  · rw [MeetsBad, completeLines_concat_of_ne hbyte, lastPart_concat_of_ne hbyte]
    refine h.imp_right fun hlong => ?_
    rw [List.length_append]
    omega

theorem MeetsBad.append (h : MeetsBad maxSize seen) (data : List UInt8) :
    MeetsBad maxSize (seen ++ data) := by
  induction data generalizing seen with
  | nil => rwa [List.append_nil]
  | cons byte data ih =>
      rw [← List.singleton_append, ← List.append_assoc]
      exact ih (h.concat byte)

theorem expected_newline (h : ¬ MeetsBad maxSize (seen ++ [newline])) :
    expected maxSize (seen ++ [newline]) =
      expected maxSize seen ++ (lineText (lastPart newline seen)).toList := by
  have hgood : ∀ line ∈ completeLines newline (seen ++ [newline]), isGood maxSize line = true := by
    intro line hline
    by_contra hbad
    exact h (.inl ⟨line, hline, Bool.eq_false_iff.mpr hbad⟩)
  rw [completeLines_concat_self, List.forall_mem_append, List.forall_mem_singleton] at hgood
  rw [expected, completeLines_concat_self, List.takeWhile_append_of_pos hgood.1,
    List.takeWhile_cons_of_pos hgood.2, List.takeWhile_nil, expected,
    List.takeWhile_eq_self_iff.mpr hgood.1, List.filterMap_append]
  cases hline : lineText (lastPart newline seen) with
  | none => rw [List.filterMap_cons_none hline]; rfl
  | some text => rw [List.filterMap_cons_some hline]; rfl

theorem expected_other (hbyte : byte ≠ newline) :
    expected maxSize (seen ++ [byte]) = expected maxSize seen := by
  rw [expected, completeLines_concat_of_ne hbyte, expected]

end Bytes

section Feed
variable {framer : MessageFramer}

/-- At a line end the line is taken out of the buffer, as a text or in vain. -/
theorem feedFrom_newline (framer : MessageFramer) (messages : List String) (data : List UInt8) :
    (∃ e, fromUtf8 framer.buffer = .error e) ∧
        (∃ e, framer.feedFrom messages (newline :: data) =
            (.error e, { framer with buffer := [] })) ∨
      (∃ text, fromUtf8 framer.buffer = .ok text) ∧
        framer.feedFrom messages (newline :: data) =
          { framer with buffer := [] }.feedFrom (messages ++ (lineText framer.buffer).toList)
            data := by
  rw [feedFrom, if_pos rfl]
  split
  · next hempty =>
      right
      have hframer : framer = { framer with buffer := [] } := by rw [← hempty]
      have htext : fromUtf8 [] = .ok "" := by decide
      rw [hempty]
      refine ⟨⟨"", htext⟩, ?_⟩
      rw [← hframer, lineText, htext]
      exact congrArg (framer.feedFrom · data) (List.append_nil messages).symm
  · cases htext : fromUtf8 framer.buffer with
    | error e => exact .inl ⟨⟨e, rfl⟩, _, rfl⟩
    | ok text =>
        refine .inr ⟨⟨text, rfl⟩, ?_⟩
        rw [lineText, htext]
        dsimp only
        split
        · rw [Option.toList_none, List.append_nil]
        · rw [Option.toList_some]

/-- From the unfinished line of what was seen, the loop finds the texts of the lines that end in the
data, or it fails at the first bad line. -/
theorem feedFrom_spec (hbuffer : framer.buffer = lastPart newline seen)
    (hgood : ¬ MeetsBad framer.maxSize seen) (messages : List String) (data : List UInt8) :
    (¬ MeetsBad framer.maxSize (seen ++ data) ∧ ∃ found,
        framer.feedFrom messages data =
          (.ok (messages ++ found), { framer with buffer := lastPart newline (seen ++ data) }) ∧
        expected framer.maxSize (seen ++ data) = expected framer.maxSize seen ++ found) ∨
      MeetsBad framer.maxSize (seen ++ data) ∧ ∃ e,
        framer.feedFrom messages data = (.error e, { framer with buffer := [] }) := by
  induction data generalizing framer seen messages with
  | nil =>
      refine .inl ⟨by rwa [List.append_nil], [], ?_, ?_⟩
      · rw [List.append_nil, List.append_nil, ← hbuffer]
        rfl
      · rw [List.append_nil, List.append_nil]
  | cons byte data ih =>
      have hassoc : seen ++ byte :: data = seen ++ [byte] ++ data := by simp
      have hfits : framer.buffer.length ≤ framer.maxSize := by
        rw [hbuffer]
        exact Nat.not_lt.mp (not_or.mp hgood).2
      rw [hassoc]
      by_cases hbyte : byte = newline
      · subst hbyte
        have hisGood : isGood framer.maxSize framer.buffer =
            (fromUtf8 framer.buffer).toOption.isSome := by
          rw [isGood, decide_eq_true hfits, Bool.true_and]
        rcases feedFrom_newline framer messages data with ⟨⟨e, he⟩, hfeed⟩ | ⟨⟨text, htext⟩, hfeed⟩
        · right
          refine ⟨MeetsBad.append ((meetsBad_newline hgood).mpr ?_) data, hfeed⟩
          rw [← hbuffer, hisGood, he]
          rfl
        · have hnext : ¬ MeetsBad framer.maxSize (seen ++ [newline]) := by
            rw [meetsBad_newline hgood, ← hbuffer, hisGood, htext]
            exact Bool.noConfusion
          have hlast : [] = lastPart newline (seen ++ [newline]) :=
            (lastPart_concat_self newline seen).symm
          rw [hfeed]
          rcases @ih _ { framer with buffer := [] } hlast hnext
              (messages ++ (lineText framer.buffer).toList) with
            ⟨hstill, found, hrun, hexpected⟩ | hfail
          · refine .inl ⟨hstill, (lineText framer.buffer).toList ++ found, ?_, ?_⟩
            · rw [hrun, List.append_assoc]
            · rw [hexpected, expected_newline hnext, ← hbuffer, List.append_assoc]
          · exact .inr hfail
      · rw [feedFrom, if_neg hbyte]
        by_cases hfull : framer.buffer.length ≥ framer.maxSize
        · rw [if_pos hfull]
          rw [hbuffer] at hfull
          exact .inr ⟨MeetsBad.append ((meetsBad_other hbyte hgood).mpr hfull) data, _, rfl⟩
        · have hnext : ¬ MeetsBad framer.maxSize (seen ++ [byte]) := by
            rwa [meetsBad_other hbyte hgood, ← hbuffer]
          have hlast : framer.buffer ++ [byte] = lastPart newline (seen ++ [byte]) := by
            rw [lastPart_concat_of_ne hbyte, hbuffer]
          have hsame : expected framer.maxSize (seen ++ [byte]) = expected framer.maxSize seen :=
            expected_other hbyte
          rw [if_neg hfull, ← hsame]
          exact @ih _ { framer with buffer := framer.buffer ++ [byte] } hlast hnext messages

/-- The calls in front of a bad line return the texts of the lines that end in their data. -/
theorem returned_append {chunks : List (List UInt8)}
    (hbuffer : framer.buffer = lastPart newline seen)
    (hgood : ¬ MeetsBad framer.maxSize (seen ++ chunks.flatten)) (later : List (List UInt8)) :
    ∃ found, returned framer (chunks ++ later) = found ++
        returned { framer with buffer := lastPart newline (seen ++ chunks.flatten) } later ∧
      expected framer.maxSize (seen ++ chunks.flatten) = expected framer.maxSize seen ++ found := by
  induction chunks generalizing framer seen with
  | nil =>
      refine ⟨[], ?_, by simp⟩
      rw [List.flatten_nil, List.append_nil, ← hbuffer]
      rfl
  | cons chunk chunks ih =>
      rw [List.flatten_cons, ← List.append_assoc] at hgood ⊢
      have hseen : ¬ MeetsBad framer.maxSize seen := fun h => hgood ((h.append _).append _)
      rcases feedFrom_spec hbuffer hseen [] chunk with ⟨-, first, hfeed, hfirst⟩ | ⟨hbad, -⟩
      · obtain ⟨found, hreturned, hexpected⟩ := @ih (seen ++ chunk)
          { framer with buffer := lastPart newline (seen ++ chunk) } rfl hgood
        refine ⟨first ++ found, ?_, ?_⟩
        · rw [List.cons_append, returned, feed, hfeed, List.nil_append, List.append_assoc,
            ← hreturned]
        · rw [hexpected, hfirst, List.append_assoc]
      · exact absurd (hbad.append _) hgood

theorem returned_empty (framer : MessageFramer) (n : Nat) :
    returned framer (List.replicate n []) = [] := by
  induction n with
  | zero => rfl
  | succ n ih => exact ih

end Feed

/-- In every call up to the one that meets the first bad line, the lines that have ended in front of
this line are returned by then, or by calls that bring nothing more. -/
def Delivers (maxSize : Nat) (chunks : List (List UInt8)) : Prop :=
  ∀ before chunk, before ++ [chunk] <+: chunks → ¬ MeetsBad maxSize before.flatten →
    ∃ later, returned (new.withMaxSize maxSize) (before ++ chunk :: List.replicate later []) =
      expected maxSize (before.flatten ++ chunk)

/-- What the calls return when the last of them may meet a bad line: it then returns nothing. -/
theorem returned_last {before : List (List UInt8)} (hgood : ¬ MeetsBad maxSize before.flatten)
    (chunk : List UInt8) (later : Nat) :
    returned (new.withMaxSize maxSize) (before ++ chunk :: List.replicate later []) =
      if MeetsBad maxSize (before.flatten ++ chunk) then expected maxSize before.flatten
      else expected maxSize (before.flatten ++ chunk) := by
  have hnothing : expected maxSize [] = [] := by
    rw [expected, completeLines_nil]
    rfl
  have hstart : (new.withMaxSize maxSize).buffer = lastPart newline [] := by
    rw [lastPart, List.splitOn_nil]
    rfl
  have hfront : returned (new.withMaxSize maxSize) (before ++ chunk :: List.replicate later []) =
      expected maxSize before.flatten ++
        returned ⟨lastPart newline before.flatten, maxSize⟩ (chunk :: List.replicate later []) := by
    obtain ⟨front, hreturned, hexpected⟩ := returned_append hstart hgood
      (chunk :: List.replicate later [])
    change expected maxSize before.flatten = expected maxSize [] ++ front at hexpected
    rw [hreturned, hexpected, hnothing]
    rfl
  rw [hfront, returned, feed]
  rcases @feedFrom_spec before.flatten ⟨lastPart newline before.flatten, maxSize⟩ rfl hgood []
      chunk with ⟨hstill, found, hfeed, hexpected⟩ | ⟨hbad, e, hfeed⟩
  · rw [hfeed, if_neg hstill, hexpected]
    dsimp only
    rw [returned_empty, List.nil_append, List.append_nil]
  · rw [hfeed, if_pos hbad]
    dsimp only
    rw [returned_empty, List.append_nil]

/-- The lines are delivered when none of them, unless it is blank, ends in the call that meets the
first bad line, and only then. -/
theorem delivers_iff (maxSize : Nat) (chunks : List (List UInt8)) :
    Delivers maxSize chunks ↔
      ∀ before chunk, before ++ [chunk] <+: chunks → ¬ MeetsBad maxSize before.flatten →
        MeetsBad maxSize (before.flatten ++ chunk) →
          expected maxSize (before.flatten ++ chunk) = expected maxSize before.flatten := by
  constructor
  · intro hdelivers before chunk hcalls hgood hbad
    obtain ⟨later, hlater⟩ := hdelivers before chunk hcalls hgood
    rw [returned_last hgood, if_pos hbad] at hlater
    exact hlater.symm
  · intro h before chunk hcalls hgood
    refine ⟨0, ?_⟩
    rw [returned_last hgood]
    split
    · next hbad => exact (h before chunk hcalls hgood hbad).symm
    · rfl

/-- A line that no text begins takes the line in front of it away when one call brings both. -/
theorem not_delivers_lone_byte :
    let chunk := utf8 "ping\n" ++ [0xFF, newline]
    ¬ Delivers (10 * 1024 * 1024) [chunk] ∧
      new.feed chunk =
          (.error ⟨.invalidData, "invalid utf-8 sequence of 1 bytes from index 0"⟩, new) ∧
        expected (10 * 1024 * 1024) chunk = ["ping"] := by
  intro chunk
  have hexpected : expected (10 * 1024 * 1024) chunk = ["ping"] := by decide
  refine ⟨?_, by decide, hexpected⟩
  intro hdelivers
  have hgood : ¬ MeetsBad (10 * 1024 * 1024) ([] : List (List UInt8)).flatten := by decide
  obtain ⟨later, hlater⟩ := hdelivers [] chunk List.prefix_rfl hgood
  have hbad : MeetsBad (10 * 1024 * 1024) ([].flatten ++ chunk) := by decide
  rw [returned_last hgood, if_pos hbad, List.flatten_nil, List.nil_append, hexpected] at hlater
  revert hlater
  decide

end MessageFramer
end Dcp
