import Dcp.Library.Lines
import Dcp.Library.Replace
import Dcp.Library.Wildcard

/-!
Streams of server-sent events, as their standard reads them. A line ends with a line feed, a
carriage return or both; a line is a field with its value, a blank line dispatches the event that
the lines before it describe, and a line that does not end is not read. Where the text is written
block by block and then cut, the events of the blocks that came through are read and nothing of the
one that was cut.
-/

namespace Library

/-- Every line end becomes a line feed. -/
def normalizeEnds : List Char → List Char
  | [] => []
  | '\r' :: '\n' :: rest => '\n' :: normalizeEnds rest
  | c :: rest => (if c = '\r' then '\n' else c) :: normalizeEnds rest

theorem normalizeEnds_pair (rest : List Char) :
    normalizeEnds ('\r' :: '\n' :: rest) = '\n' :: normalizeEnds rest := by
  rw [normalizeEnds]

theorem normalizeEnds_cons {c : Char} {rest : List Char}
    (h : c = '\r' → ∀ others, rest ≠ '\n' :: others) :
    normalizeEnds (c :: rest) = (if c = '\r' then '\n' else c) :: normalizeEnds rest := by
  rw [normalizeEnds]
  rintro others rfl rfl
  exact h rfl others rfl

theorem normalizeEnds_eq_self {text : List Char} (h : '\r' ∉ text) : normalizeEnds text = text := by
  induction text with
  | nil => rfl
  | cons c rest ih =>
      have hc := List.ne_of_not_mem_cons h
      rw [normalizeEnds_cons fun heq => absurd heq.symm hc, if_neg hc.symm,
        ih (List.not_mem_of_not_mem_cons h)]

theorem normalizeEnds_append {front : List Char} (h : '\r' ∉ front) (rest : List Char) :
    normalizeEnds (front ++ rest) = front ++ normalizeEnds rest := by
  induction front with
  | nil => rfl
  | cons c front ih =>
      have hc := List.ne_of_not_mem_cons h
      rw [List.cons_append, normalizeEnds_cons fun heq => absurd heq.symm hc, if_neg hc.symm,
        ih (List.not_mem_of_not_mem_cons h), List.cons_append]

theorem normalizeEnds_eq_nil_iff {text : List Char} : normalizeEnds text = [] ↔ text = [] := by
  fun_cases normalizeEnds text with
  | case1 => exact Iff.rfl
  | case2 rest => exact iff_of_false (List.cons_ne_nil _ _) (List.cons_ne_nil _ _)
  | case3 c rest => exact iff_of_false (List.cons_ne_nil _ _) (List.cons_ne_nil _ _)

/-- What is a line of the result was there before. -/
theorem exists_of_normalizeEnds_eq {text front rest : List Char} (hfront : '\n' ∉ front)
    (h : normalizeEnds text = front ++ rest) :
    '\r' ∉ front ∧ ∃ back, text = front ++ back ∧ normalizeEnds back = rest := by
  induction front generalizing text with
  | nil => exact ⟨List.not_mem_nil, text, rfl, h⟩
  | cons c front ih =>
      have hc := List.ne_of_not_mem_cons hfront
      fun_cases normalizeEnds text with
      | case1 => cases h
      | case2 others =>
          rw [normalizeEnds_pair] at h
          exact absurd (List.cons.inj h).1 hc
      | case3 d others hpair =>
          rw [normalizeEnds_cons fun heq others' hothers => hpair others' heq hothers] at h
          obtain ⟨hd, hrest⟩ := List.cons.inj h
          split at hd
          · exact absurd hd hc
          · next hreturn =>
              obtain ⟨hreturns, back, rfl, hback⟩ := ih (List.not_mem_of_not_mem_cons hfront) hrest
              subst hd
              exact ⟨List.not_mem_cons_of_ne_of_not_mem (Ne.symm hreturn) hreturns, back, rfl,
                hback⟩

theorem normalizeEnds_eq_singleton_iff {text : List Char} :
    normalizeEnds text = ['\n'] ↔ text = ['\n'] ∨ text = ['\r'] ∨ text = ['\r', '\n'] := by
  constructor
  · intro h
    fun_cases normalizeEnds text with
    | case1 => cases h
    | case2 others =>
        rw [normalizeEnds_pair] at h
        rw [normalizeEnds_eq_nil_iff.mp (List.cons.inj h).2]
        exact .inr (.inr rfl)
    | case3 c others hpair =>
        rw [normalizeEnds_cons fun heq others' hothers => hpair others' heq hothers] at h
        obtain ⟨hc, hothers⟩ := List.cons.inj h
        rw [normalizeEnds_eq_nil_iff.mp hothers]
        split at hc
        · next hreturn => exact .inr (.inl (by rw [hreturn]))
        · exact .inl (by rw [hc])
  · rintro (rfl | rfl | rfl) <;> rfl

theorem not_mem_normalizeEnds (text : List Char) : '\r' ∉ normalizeEnds text := by
  fun_induction normalizeEnds text with
  | case1 => exact List.not_mem_nil
  | case2 rest ih => exact List.not_mem_cons_of_ne_of_not_mem (by decide) ih
  | case3 c rest _ ih =>
      apply List.not_mem_cons_of_ne_of_not_mem _ ih
      split
      · decide
      · next hc => exact Ne.symm hc

theorem replaceFrom_singleton (old new : Char) (text : List Char) :
    replaceFrom [old] [new] 0 text = text.map fun c => if c = old then new else c := by
  rw [replaceFrom_char, List.map_eq_flatMap]
  refine congrArg (List.flatMap · text) (funext fun c => ?_)
  split
  · rfl
  · rfl

/-- Replacing the pairs first and then the single carriage returns. -/
theorem replace_ends (text : List Char) :
    replaceFrom ['\r'] ['\n'] 0 (replaceFrom ['\r', '\n'] ['\n'] 0 text) = normalizeEnds text := by
  rw [replaceFrom_singleton]
  fun_induction normalizeEnds text with
  | case1 => rfl
  | case2 rest ih =>
      rw [← ih]
      rfl
  | case3 c rest hpair ih =>
      have hprefix : ¬ ['\r', '\n'].isPrefixOf (c :: rest) = true := by
        intro h
        obtain ⟨others, hothers⟩ := List.isPrefixOf_iff_prefix.mp h
        obtain ⟨rfl, rfl⟩ := List.cons.inj hothers
        exact hpair others rfl rfl
      rw [replaceFrom, if_neg hprefix, List.map_cons, ih]

structure StreamEvent where
  type : List Char
  data : List Char
  lastId : List Char
  deriving DecidableEq

/-- What the lines read so far leave to the lines that follow, and the events dispatched. -/
structure EventReader where
  type : List Char
  data : List Char
  lastId : List Char
  retry : Option (List Char)
  events : List StreamEvent
  deriving DecidableEq

namespace EventReader

def start : EventReader := ⟨[], [], [], none, []⟩

def setField (reader : EventReader) (name value : List Char) : EventReader :=
  if name = ['e', 'v', 'e', 'n', 't'] then { reader with type := value }
  else if name = ['d', 'a', 't', 'a'] then { reader with data := reader.data ++ value ++ ['\n'] }
  else if name = ['i', 'd'] then
    if '\x00' ∈ value then reader else { reader with lastId := value }
  else if name = ['r', 'e', 't', 'r', 'y'] then
    if value ≠ [] ∧ value.all Char.isDigit then { reader with retry := some value } else reader
  else reader

/-- The event that the fields describe; without data there is none. -/
def dispatch (reader : EventReader) : EventReader :=
  let events := if reader.data = [] then [] else
    [⟨if reader.type = [] then ['m', 'e', 's', 's', 'a', 'g', 'e'] else reader.type,
      reader.data.dropLast, reader.lastId⟩]
  { reader with type := [], data := [], events := reader.events ++ events }

/-- The value without the one space that may precede it. -/
def dropSpace : List Char → List Char
  | ' ' :: value => value
  | value => value

def readLine (reader : EventReader) (line : List Char) : EventReader :=
  if line = [] then reader.dispatch
  else
    match splitOnce ':' line with
    | none => reader.setField line []
    | some (name, value) => if name = [] then reader else reader.setField name (dropSpace value)

/-- The text read up to its last line end. -/
def read (text : List Char) : EventReader :=
  ((normalizeEnds text).splitOn '\n').dropLast.foldl readLine start

theorem readLine_nil (reader : EventReader) : reader.readLine [] = reader.dispatch := rfl

theorem readLine_field (reader : EventReader) {name : List Char} (hname : name ≠ [])
    (hcolon : ':' ∉ name) (value : List Char) :
    reader.readLine (name ++ ':' :: value) = reader.setField name (dropSpace value) := by
  have hne : name ++ ':' :: value ≠ [] := List.append_ne_nil_of_left_ne_nil hname _
  rw [readLine, if_neg hne, splitOnce_append hcolon]
  exact if_neg hname

theorem setField_data (reader : EventReader) (value : List Char) :
    reader.setField ['d', 'a', 't', 'a'] value =
      { reader with data := reader.data ++ value ++ ['\n'] } := rfl

/-- The other fields leave the data and the events alone. -/
theorem setField_of_ne {name : List Char} (h : name ≠ ['d', 'a', 't', 'a']) (reader : EventReader)
    (value : List Char) : (reader.setField name value).data = reader.data ∧
      (reader.setField name value).events = reader.events := by
  simp only [setField, if_neg h]
  repeat' split
  all_goals exact ⟨rfl, rfl⟩

/-- Lines of other fields leave the data and the events alone. -/
theorem foldl_readLine_of_ne {lines : List (List Char)} (h : ∀ line ∈ lines, ∃ name value,
      line = name ++ ':' :: value ∧ name ≠ [] ∧ ':' ∉ name ∧ name ≠ ['d', 'a', 't', 'a'])
    (reader : EventReader) : (lines.foldl readLine reader).data = reader.data ∧
      (lines.foldl readLine reader).events = reader.events := by
  induction lines generalizing reader with
  | nil => exact ⟨rfl, rfl⟩
  | cons line lines ih =>
      obtain ⟨⟨name, value, rfl, hname, hcolon, hdata⟩, hlines⟩ := List.forall_mem_cons.mp h
      have hstep := setField_of_ne hdata reader (dropSpace value)
      have hrest := ih hlines (reader.setField name (dropSpace value))
      rw [List.foldl_cons, readLine_field reader hname hcolon]
      exact ⟨hrest.1.trans hstep.1, hrest.2.trans hstep.2⟩

/-- Lines of data add up. -/
theorem foldl_readLine_data (reader : EventReader) (values : List (List Char)) :
    (values.map fun value => ['d', 'a', 't', 'a'] ++ ':' :: ' ' :: value).foldl readLine reader =
      { reader with data := reader.data ++ unlines '\n' values } := by
  induction values generalizing reader with
  | nil =>
      rw [unlines, List.flatMap_nil, List.append_nil]
      rfl
  | cons value values ih =>
      rw [List.map_cons, List.foldl_cons, readLine_field reader (by decide) (by decide),
        setField_data, ih]
      simp only [dropSpace, unlines, List.flatMap_cons, List.append_assoc]

/-- A text of lines that hold no line end is read line by line. -/
theorem read_unlines {texts : List (List Char)} (h : ∀ text ∈ texts, NoLineEnd text) :
    read (unlines '\n' texts) = texts.foldl readLine start := by
  have hreturns : '\r' ∉ unlines '\n' texts := by
    intro hmem
    obtain ⟨text, htext, hmem⟩ := List.mem_flatMap.mp hmem
    rcases List.mem_append.mp hmem with hmem | hmem
    · exact (h text htext).noReturn hmem
    · exact absurd (List.mem_singleton.mp hmem) (by decide)
  rw [read, normalizeEnds_eq_self hreturns, splitOn_unlines fun text htext => (h text htext).noFeed,
    List.dropLast_concat]

end EventReader

/-- The lines of one event: only the last one is blank, and the event that they describe is that of
the fields, under the id of an earlier event if there is none of its own. -/
structure EventBlock where
  lines : List (List Char)
  type : List Char
  data : List Char
  id : Option (List Char)
  ends : ∃ front, lines = front ++ [[]] ∧ ∀ line ∈ front, line ≠ []
  noLineEnd : ∀ line ∈ lines, NoLineEnd line
  reads : ∀ reader : EventReader, reader.type = [] → reader.data = [] → ∃ retry,
    lines.foldl EventReader.readLine reader = ⟨[], [], id.getD reader.lastId, retry,
      reader.events ++ [⟨type, data, id.getD reader.lastId⟩]⟩

namespace EventBlock

/-- The events of some blocks, when `lastId` is the last id before them. -/
def events (lastId : List Char) : List EventBlock → List StreamEvent
  | [] => []
  | block :: blocks =>
      ⟨block.type, block.data, block.id.getD lastId⟩ :: events (block.id.getD lastId) blocks

def text (blocks : List EventBlock) : List Char := unlines '\n' (blocks.flatMap EventBlock.lines)

theorem text_append (front back : List EventBlock) :
    text (front ++ back) = text front ++ text back := by
  rw [text, List.flatMap_append, unlines_append]
  rfl

end EventBlock

/-- The complete lines of a text that was cut off are the first ones of the whole. -/
theorem completeLines_of_unlines {α : Type} [DecidableEq α] {eol : α} {text : List α}
    {texts : List (List α)} (h : ∀ line ∈ texts, eol ∉ line)
    (hfront : text <+: unlines eol texts) : completeLines eol text <+: texts := by
  obtain ⟨rest, hrest⟩ := hfront
  have hwhole : completeLines eol (unlines eol texts) = texts := by
    rw [completeLines, splitOn_unlines h, List.dropLast_concat]
  have hsplit : completeLines eol (text ++ rest) =
      completeLines eol text ++ completeLines eol (lastPart eol text ++ rest) := by
    rw [completeLines, splitOn_append, List.dropLast_append_of_ne_nil (List.splitOn_ne_nil _ _)]
    rfl
  rw [← hwhole, ← hrest, hsplit]
  exact List.prefix_append _ _

namespace EventReader

theorem foldl_readLine_of_ne_nil {lines : List (List Char)} (h : ∀ line ∈ lines, line ≠ [])
    (reader : EventReader) : (lines.foldl readLine reader).events = reader.events := by
  have hset : ∀ (reader : EventReader) (name value : List Char),
      (reader.setField name value).events = reader.events := by
    intro reader name value
    simp only [setField]
    repeat' split
    all_goals rfl
  induction lines generalizing reader with
  | nil => rfl
  | cons line lines ih =>
      obtain ⟨hline, hlines⟩ := List.forall_mem_cons.mp h
      rw [List.foldl_cons, ih hlines, readLine, if_neg hline]
      split
      · exact hset reader line []
      · split
        · rfl
        · exact hset reader _ _

/-- Whole blocks are read as their events, and nothing is left open. -/
theorem foldl_readLine_blocks (blocks : List EventBlock) {reader : EventReader}
    (htype : reader.type = []) (hdata : reader.data = []) :
    ((blocks.flatMap EventBlock.lines).foldl readLine reader).events =
      reader.events ++ EventBlock.events reader.lastId blocks := by
  induction blocks generalizing reader with
  | nil => exact (List.append_nil _).symm
  | cons block blocks ih =>
      obtain ⟨retry, hread⟩ := block.reads reader htype hdata
      rw [List.flatMap_cons, List.foldl_append, hread, ih rfl rfl, List.append_assoc]
      rfl

/-- A front of the lines of some blocks holds whole blocks and a front of one more without its blank
line. -/
theorem exists_of_prefix_lines {blocks : List EventBlock} {lines : List (List Char)}
    (h : lines <+: blocks.flatMap EventBlock.lines) :
    ∃ front back begun, blocks = front ++ back ∧
      lines = front.flatMap EventBlock.lines ++ begun ∧ ∀ line ∈ begun, line ≠ [] := by
  induction blocks generalizing lines with
  | nil => exact ⟨[], [], [], rfl, List.prefix_nil.mp h, nofun⟩
  | cons block blocks ih =>
      rw [List.flatMap_cons] at h
      obtain ⟨front, hfront, hopen⟩ := block.ends
      obtain hcut | ⟨rest, rfl⟩ :=
        List.prefix_or_prefix_of_prefix h (List.prefix_append block.lines _)
      · rw [hfront, List.prefix_concat_iff] at hcut
        obtain hcut | hcut := hcut
        · refine ⟨[block], blocks, [], rfl, ?_, nofun⟩
          rw [hcut, ← hfront]
          simp
        · exact ⟨[], block :: blocks, lines, rfl, rfl, fun line hline =>
            hopen line (hcut.subset hline)⟩
      · obtain ⟨front, back, begun, rfl, rfl, hopen⟩ := ih ((List.prefix_append_right_inj _).mp h)
        refine ⟨block :: front, back, begun, rfl, ?_, hopen⟩
        rw [List.flatMap_cons, List.append_assoc]

/-- Of a stream that was cut off the blocks that came through are read. -/
theorem read_cut {blocks : List EventBlock} {text : List Char}
    (h : text <+: EventBlock.text blocks) :
    ∃ front back, blocks = front ++ back ∧ (read text).events = EventBlock.events [] front := by
  have hlines : ∀ line ∈ blocks.flatMap EventBlock.lines, NoLineEnd line := by
    intro line hline
    obtain ⟨block, -, hline⟩ := List.mem_flatMap.mp hline
    exact block.noLineEnd line hline
  have hreturns : '\r' ∉ text := by
    intro hmem
    obtain ⟨line, hline, hmem⟩ := List.mem_flatMap.mp (h.subset hmem)
    obtain hmem | hmem := List.mem_append.mp hmem
    · exact (hlines line hline).noReturn hmem
    · exact absurd (List.mem_singleton.mp hmem) (by decide)
  obtain ⟨front, back, begun, hblocks, hcomplete, hopen⟩ := exists_of_prefix_lines
    (completeLines_of_unlines (fun line hline => (hlines line hline).noFeed) h)
  refine ⟨front, back, hblocks, ?_⟩
  rw [completeLines] at hcomplete
  rw [read, normalizeEnds_eq_self hreturns, hcomplete, List.foldl_append,
    foldl_readLine_of_ne_nil hopen, foldl_readLine_blocks front rfl rfl]
  rfl

/-- A stream that was not cut off is read as all its events. -/
theorem read_text (blocks : List EventBlock) :
    (read (EventBlock.text blocks)).events = EventBlock.events [] blocks := by
  have hlines : ∀ line ∈ blocks.flatMap EventBlock.lines, NoLineEnd line := by
    intro line hline
    obtain ⟨block, -, hline⟩ := List.mem_flatMap.mp hline
    exact block.noLineEnd line hline
  rw [EventBlock.text, read_unlines hlines, foldl_readLine_blocks blocks rfl rfl]
  rfl

end EventReader
end Library
