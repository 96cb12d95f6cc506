import Dcp.Library.Lines
import Dcp.Library.Replace

/-!
The text format in which metrics are exposed. A text is a sequence of lines that end with a line
feed; a line is blank, a comment or a sample: the name of a metric, labels with quoted values, the
value and perhaps a timestamp, with blanks between them where one likes. What a sample is written as
reads back as that sample, whatever characters the values of its labels hold.
-/

namespace Library.Exposition

structure Sample where
  name : List Char
  labels : List (List Char × List Char)
  value : List Char
  timestamp : List Char
  deriving DecidableEq

inductive Line
  | blank
  | comment (text : List Char)
  | sample (sample : Sample)
  deriving DecidableEq

def isBlank (c : Char) : Bool := c = ' ' || c = '\t'

def skipBlanks (text : List Char) : List Char := text.dropWhile isBlank

def isNameChar (c : Char) : Bool := c.isAlphanum || c = '_' || c = ':'

/-- The name in front of a text, which does not start with a digit, and the rest. -/
def readName (text : List Char) : Option (List Char × List Char) :=
  match text with
  | [] => none
  | c :: _ =>
      if isNameChar c && !c.isDigit then
        some (text.takeWhile isNameChar, text.dropWhile isNameChar)
      else none

/-- The value of a label after its opening quote, and what follows the closing one. -/
def readLabelValue : List Char → Option (List Char × List Char)
  | [] => none
  | [c] => if c = '"' then some ([], []) else none
  | c :: d :: rest =>
      if c = '"' then some ([], d :: rest)
      else if c = '\\' then do
        let e ← if d = 'n' then some '\n' else if d = '\\' ∨ d = '"' then some d else none
        let (value, rest) ← readLabelValue rest
        some (e :: value, rest)
      else do
        let (value, rest) ← readLabelValue (d :: rest)
        some (c :: value, rest)

/-- A certain character after blanks, and the rest. -/
def expect (c : Char) (text : List Char) : Option (List Char) :=
  if (skipBlanks text).head? = some c then some (skipBlanks text).tail else none

/-- A label; unlike that of a metric its name holds no colon. -/
def readLabel (text : List Char) : Option ((List Char × List Char) × List Char) := do
  let (name, rest) ← readName (skipBlanks text)
  if ':' ∈ name then none
  let rest ← expect '=' rest
  let rest ← expect '"' rest
  let (value, rest) ← readLabelValue rest
  some ((name, value), rest)

/-- The labels up to the closing brace; the fuel bounds their number. -/
def readLabels : Nat → List Char → Option (List (List Char × List Char) × List Char)
  | 0, _ => none
  | fuel + 1, text =>
      match expect '\x7d' text with
      | some rest => some ([], rest)
      | none => do
          let (label, rest) ← readLabel text
          match expect ',' rest with
          | some rest =>
              let (labels, rest) ← readLabels fuel rest
              some (label :: labels, rest)
          | none =>
              let rest ← expect '\x7d' rest
              some ([label], rest)

/-- A word, and the rest after the blanks that follow it. -/
def readToken (text : List Char) : List Char × List Char :=
  (text.takeWhile (!isBlank ·), skipBlanks (text.dropWhile (!isBlank ·)))

def isTimestamp (text : List Char) : Bool :=
  (if text.head? = some '-' then text.tail else text).all Char.isDigit

def readSample (text : List Char) : Option Sample := do
  let (name, rest) ← readName text
  let (labels, rest) ← match expect '\x7b' rest with
    | some rest => readLabels (rest.length + 1) rest
    | none => some ([], rest)
  let (value, rest) := readToken (skipBlanks rest)
  let (timestamp, rest) := readToken rest
  if value ≠ [] ∧ isTimestamp timestamp = true ∧ rest = [] then
    some ⟨name, labels, value, timestamp⟩
  else none

def readLine (text : List Char) : Option Line :=
  match skipBlanks text with
  | [] => some .blank
  | c :: rest => if c = '#' then some (.comment rest) else (readSample (c :: rest)).map .sample

/-- The lines of a text; the last one has to end, too. -/
def readText (text : List Char) : Option (List Line) :=
  if lastPart '\n' text = [] then (completeLines '\n' text).mapM readLine else none

def escapeChar (c : Char) : List Char :=
  if c = '\\' then ['\\', '\\']
  else if c = '\n' then ['\\', 'n']
  else if c = '"' then ['\\', '"']
  else [c]

def escape (value : List Char) : List Char := value.flatMap escapeChar

/-- Escaping in three rounds, the backslash first. -/
theorem replace_escape (value : List Char) :
    replaceFrom ['"'] ['\\', '"'] 0 (replaceFrom ['\n'] ['\\', 'n'] 0
      (replaceFrom ['\\'] ['\\', '\\'] 0 value)) = escape value := by
  rw [replaceFrom_char, replaceFrom_char, replaceFrom_char, List.flatMap_assoc, List.flatMap_assoc]
  refine congrArg (List.flatMap · value) (funext fun c => ?_)
  by_cases hslash : c = '\\'
  · subst hslash
    decide
  by_cases hline : c = '\n'
  · subst hline
    decide
  by_cases hquote : c = '"'
  · subst hquote
    decide
  simp [escapeChar, hslash, hline, hquote]

theorem readLabelValue_cons {c : Char} (hquote : c ≠ '"') (hslash : c ≠ '\\') {rest : List Char}
    (h : rest ≠ []) : readLabelValue (c :: rest) =
      (readLabelValue rest).map fun read => (c :: read.1, read.2) := by
  cases rest with
  | nil => exact absurd rfl h
  | cons d rest =>
      rw [readLabelValue, if_neg hquote, if_neg hslash]
      cases readLabelValue (d :: rest) <;> rfl

theorem readLabelValue_escape (value rest : List Char) :
    readLabelValue (escape value ++ '"' :: rest) = some (value, rest) := by
  induction value with
  | nil => cases rest <;> rfl
  | cons c value ih =>
      rw [escape, List.flatMap_cons, List.append_assoc]
      rw [escape] at ih
      by_cases hslash : c = '\\'
      · subst hslash
        simp [escapeChar, readLabelValue, ih]
      by_cases hline : c = '\n'
      · subst hline
        simp [escapeChar, readLabelValue, ih]
      by_cases hquote : c = '"'
      · subst hquote
        simp [escapeChar, readLabelValue, ih]
      have hself : escapeChar c = [c] := by simp [escapeChar, hslash, hline, hquote]
      rw [hself, List.singleton_append, readLabelValue_cons hquote hslash (by simp), ih]
      rfl

section Text

/-- A name as `readName` reads it. -/
def isName (name : List Char) : Bool := name.all isNameChar && name.head?.any fun c => !c.isDigit

theorem readName_append {name : List Char} (h : isName name = true) {d : Char}
    (hd : isNameChar d = false) (rest : List Char) :
    readName (name ++ d :: rest) = some (name, d :: rest) := by
  rw [isName, Bool.and_eq_true] at h
  cases name with
  | nil => cases h.2
  | cons c name =>
      have hall := List.all_eq_true.mp h.1
      have hfirst : (isNameChar c && !c.isDigit) = true := by
        rw [hall c List.mem_cons_self]
        exact h.2
      have htake : (c :: name ++ d :: rest).takeWhile isNameChar = c :: name := by
        rw [List.takeWhile_append_of_pos hall, List.takeWhile_cons_of_neg (by rw [hd]; decide),
          List.append_nil]
      have hdrop : (c :: name ++ d :: rest).dropWhile isNameChar = d :: rest := by
        rw [List.dropWhile_append_of_pos hall, List.dropWhile_cons_of_neg (by rw [hd]; decide)]
      rw [List.cons_append] at htake hdrop ⊢
      rw [readName, if_pos hfirst, htake, hdrop]

theorem skipBlanks_cons {c : Char} (h : isBlank c = false) (rest : List Char) :
    skipBlanks (c :: rest) = c :: rest :=
  List.dropWhile_cons_of_neg (by rw [h]; decide)

theorem expect_cons {c : Char} (h : isBlank c = false) (rest : List Char) :
    expect c (c :: rest) = some rest := by
  rw [expect, skipBlanks_cons h, List.head?_cons, if_pos rfl, List.tail_cons]

theorem expect_cons_of_ne {c d : Char} (h : isBlank d = false) (hne : d ≠ c) (rest : List Char) :
    expect c (d :: rest) = none := by
  rw [expect, skipBlanks_cons h, List.head?_cons, if_neg fun heq => hne (Option.some.inj heq)]

/-- A character of a name is not a blank. -/
theorem isBlank_of_isNameChar {c : Char} (h : isNameChar c = true) : isBlank c = false := by
  rw [Bool.eq_false_iff, isBlank, ne_eq, Bool.or_eq_true, decide_eq_true_eq, decide_eq_true_eq]
  rintro (rfl | rfl) <;> exact absurd h (by decide)

theorem exists_head_of_isName {name : List Char} (h : isName name = true) :
    ∃ c rest, name = c :: rest ∧ isNameChar c = true := by
  rw [isName, Bool.and_eq_true] at h
  cases name with
  | nil => cases h.2
  | cons c rest => exact ⟨c, rest, rfl, List.all_eq_true.mp h.1 c List.mem_cons_self⟩

def labelText (label : List Char × List Char) : List Char :=
  label.1 ++ '=' :: '"' :: (escape label.2 ++ ['"'])

/-- The labels after the first one, each after a comma. -/
def labelsText (labels : List (List Char × List Char)) : List Char :=
  labels.flatMap fun label => ',' :: labelText label

/-- What a sample without a timestamp is written as. -/
def sampleText (name : List Char) (labels : List (List Char × List Char)) (value : List Char) :
    List Char :=
  match labels with
  | [] => name ++ ' ' :: value
  | label :: rest =>
      name ++ '\x7b' :: (labelText label ++ (labelsText rest ++ '\x7d' :: ' ' :: value))

def isLabelName (name : List Char) : Bool := isName name && decide (':' ∉ name)

theorem readLabel_labelText {label : List Char × List Char} (h : isLabelName label.1 = true)
    (rest : List Char) : readLabel (labelText label ++ rest) = some (label, rest) := by
  rw [isLabelName, Bool.and_eq_true, decide_eq_true_eq] at h
  obtain ⟨c, name, hname, hc⟩ := exists_head_of_isName h.1
  have hskip : skipBlanks (labelText label ++ rest) =
      label.1 ++ '=' :: ('"' :: (escape label.2 ++ '"' :: rest)) := by
    rw [labelText, hname]
    simp [skipBlanks_cons (isBlank_of_isNameChar hc)]
  have hread := readName_append h.1 (d := '=') (by decide) ('"' :: (escape label.2 ++ '"' :: rest))
  rw [readLabel, hskip, hread]
  simp [h.2, expect_cons (c := '=') (by decide), expect_cons (c := '"') (by decide),
    readLabelValue_escape]

theorem expect_labelText {label : List Char × List Char} (h : isLabelName label.1 = true)
    (rest : List Char) : expect '\x7d' (labelText label ++ rest) = none := by
  rw [isLabelName, Bool.and_eq_true] at h
  obtain ⟨c, name, hname, hc⟩ := exists_head_of_isName h.1
  have hne : c ≠ '\x7d' := by
    rintro rfl
    exact absurd hc (by decide)
  rw [labelText, hname, List.cons_append, List.cons_append]
  exact expect_cons_of_ne (isBlank_of_isNameChar hc) hne _

/-- The induction is on the labels after the first one; each label takes a unit of fuel. -/
theorem readLabels_labelsText {label : List Char × List Char}
    {labels : List (List Char × List Char)}
    (h : ∀ l ∈ label :: labels, isLabelName l.1 = true) (rest : List Char) (fuel : Nat)
    (hfuel : labels.length < fuel) :
    readLabels fuel (labelText label ++ (labelsText labels ++ '\x7d' :: rest)) =
      some (label :: labels, rest) := by
  induction labels generalizing label fuel with
  | nil =>
      obtain ⟨fuel, rfl⟩ := Nat.exists_eq_add_one_of_ne_zero (Nat.ne_zero_of_lt hfuel)
      have hread := readLabel_labelText (h label List.mem_cons_self) ('\x7d' :: rest)
      rw [labelsText, List.flatMap_nil, List.nil_append, readLabels,
        expect_labelText (h label List.mem_cons_self), hread]
      simp [expect_cons_of_ne (c := ',') (d := '\x7d') (by decide) (by decide),
        expect_cons (c := '\x7d') (by decide)]
  | cons next labels ih =>
      obtain ⟨fuel, rfl⟩ := Nat.exists_eq_add_one_of_ne_zero (Nat.ne_zero_of_lt hfuel)
      have hnext := ih (fun l hl => h l (List.mem_cons_of_mem label hl)) fuel
        (by rw [List.length_cons] at hfuel; omega)
      have hread := readLabel_labelText (h label List.mem_cons_self)
        (',' :: (labelText next ++ (labelsText labels ++ '\x7d' :: rest)))
      rw [labelsText, List.flatMap_cons, List.cons_append, List.cons_append, List.append_assoc,
        readLabels, expect_labelText (h label List.mem_cons_self)]
      rw [labelsText] at hnext hread
      simp [hread, expect_cons (c := ',') (by decide), hnext]

theorem readToken_of_unblank {token : List Char} (h : ∀ c ∈ token, isBlank c = false) :
    readToken token = (token, []) := by
  have hall : ∀ c ∈ token, (!isBlank c) = true := fun c hc => by rw [h c hc]; rfl
  rw [readToken, List.takeWhile_eq_self_iff.mpr hall, List.dropWhile_eq_nil_iff.mpr hall]
  rfl

theorem skipBlanks_of_unblank {token : List Char} (h : ∀ c ∈ token, isBlank c = false) :
    skipBlanks token = token := by
  cases token with
  | nil => rfl
  | cons c rest => exact skipBlanks_cons (h c List.mem_cons_self) rest

/-- The characters of a number as it is written. -/
def isValueChar (c : Char) : Bool := c.isAlphanum || c = '.' || c = '-' || c = '+'

def isValue (value : List Char) : Bool := value.all isValueChar && !value.isEmpty

theorem isBlank_of_isValueChar {c : Char} (h : isValueChar c = true) : isBlank c = false := by
  rw [Bool.eq_false_iff, isBlank, ne_eq, Bool.or_eq_true, decide_eq_true_eq, decide_eq_true_eq]
  rintro (rfl | rfl) <;> exact absurd h (by decide)

theorem length_le_length_labelsText (labels : List (List Char × List Char)) :
    labels.length ≤ (labelsText labels).length := by
  induction labels with
  | nil => exact Nat.le_refl 0
  | cons label labels ih =>
      simp only [labelsText, List.flatMap_cons, List.length_append, List.length_cons] at ih ⊢
      omega

/-- A sample is read as it was written. -/
theorem readSample_sampleText {name value : List Char} {labels : List (List Char × List Char)}
    (hname : isName name = true) (hlabels : ∀ label ∈ labels, isLabelName label.1 = true)
    (hvalue : isValue value = true) :
    readSample (sampleText name labels value) = some ⟨name, labels, value, []⟩ := by
  rw [isValue, Bool.and_eq_true, Bool.not_eq_true', List.isEmpty_eq_false_iff] at hvalue
  obtain ⟨hchars, hne⟩ := hvalue
  have hblank : ∀ c ∈ value, isBlank c = false := fun c hc =>
    isBlank_of_isValueChar (List.all_eq_true.mp hchars c hc)
  have hspace : skipBlanks (' ' :: value) = value := by
    rw [skipBlanks, List.dropWhile_cons_of_pos rfl]
    exact skipBlanks_of_unblank hblank
  have htoken := readToken_of_unblank hblank
  have hnone : readToken [] = ([], []) := rfl
  cases labels with
  | nil =>
      have hread := readName_append hname (d := ' ') (by decide) value
      have hbrace : expect '\x7b' (' ' :: value) = none := by
        rw [expect, hspace, if_neg]
        intro hhead
        have hmem := List.all_eq_true.mp hchars _ (List.mem_of_mem_head? hhead)
        exact absurd hmem (by decide)
      rw [sampleText, readSample, hread]
      simp [hbrace, hspace, htoken, hnone, hne, isTimestamp]
  | cons label labels =>
      have hread := readName_append hname (d := '\x7b') (by decide)
        (labelText label ++ (labelsText labels ++ '\x7d' :: ' ' :: value))
      have hlength : labels.length <
          (labelText label ++ (labelsText labels ++ '\x7d' :: ' ' :: value)).length + 1 := by
        have hle := length_le_length_labelsText labels
        rw [List.length_append, List.length_append]
        omega
      have hrest := readLabels_labelsText hlabels (' ' :: value) _ hlength
      rw [sampleText, readSample, hread]
      simp only [Option.bind_eq_bind, Option.bind_some, expect_cons (c := '\x7b') (by decide),
        hrest]
      simp [hspace, htoken, hnone, hne, isTimestamp]

theorem readLine_sampleText {name value : List Char} {labels : List (List Char × List Char)}
    (hname : isName name = true) (hlabels : ∀ label ∈ labels, isLabelName label.1 = true)
    (hvalue : isValue value = true) :
    readLine (sampleText name labels value) = some (.sample ⟨name, labels, value, []⟩) := by
  have hsample := readSample_sampleText hname hlabels hvalue
  obtain ⟨c, rest, htext, hc⟩ : ∃ c rest, sampleText name labels value = c :: rest ∧
      isNameChar c = true := by
    obtain ⟨c, rest, rfl, hc⟩ := exists_head_of_isName hname
    cases labels <;> exact ⟨c, _, rfl, hc⟩
  have hhash : c ≠ '#' := by
    rintro rfl
    exact absurd hc (by decide)
  rw [htext] at hsample ⊢
  rw [readLine, skipBlanks_cons (isBlank_of_isNameChar hc)]
  simp only [hhash, if_false, hsample, Option.map_some]

theorem not_mem_escape (value : List Char) : '\n' ∉ escape value := by
  rw [escape, List.mem_flatMap]
  rintro ⟨c, -, hc⟩
  unfold escapeChar at hc
  split_ifs at hc with hslash hline hquote
  iterate 3 exact absurd hc (by decide)
  exact hline (List.mem_singleton.mp hc).symm

/-- A sample is one line. -/
theorem not_mem_sampleText {name value : List Char} {labels : List (List Char × List Char)}
    (hname : isName name = true) (hlabels : ∀ label ∈ labels, isLabelName label.1 = true)
    (hvalue : isValue value = true) : '\n' ∉ sampleText name labels value := by
  have hnames : ∀ {name : List Char}, isName name = true → '\n' ∉ name := by
    intro name h hmem
    rw [isName, Bool.and_eq_true] at h
    exact absurd (List.all_eq_true.mp h.1 _ hmem) (by decide)
  have hnumber : '\n' ∉ value := by
    intro hmem
    rw [isValue, Bool.and_eq_true] at hvalue
    exact absurd (List.all_eq_true.mp hvalue.1 _ hmem) (by decide)
  have hlabel : ∀ label ∈ labels, '\n' ∉ labelText label := by
    intro label hmem
    have hlabelName := hlabels label hmem
    rw [isLabelName, Bool.and_eq_true] at hlabelName
    simp [labelText, hnames hlabelName.1, not_mem_escape]
  cases labels with
  | nil => simp [sampleText, hnames hname, hnumber]
  | cons label labels =>
      obtain ⟨hfirst, hrest⟩ := List.forall_mem_cons.mp hlabel
      have hlabelsText : '\n' ∉ labelsText labels := by
        rw [labelsText, List.mem_flatMap]
        rintro ⟨next, hnext, hmem⟩
        exact hrest next hnext ((List.mem_cons.mp hmem).resolve_left (by decide))
      simp [sampleText, hnames hname, hnumber, hfirst, hlabelsText]

/-- The text is one line, which is read so. -/
def Spells (text : List Char) (line : Line) : Prop := '\n' ∉ text ∧ readLine text = some line

theorem spells_sampleText {name value : List Char} {labels : List (List Char × List Char)}
    (hname : isName name = true) (hlabels : ∀ label ∈ labels, isLabelName label.1 = true)
    (hvalue : isValue value = true) :
    Spells (sampleText name labels value) (.sample ⟨name, labels, value, []⟩) :=
  ⟨not_mem_sampleText hname hlabels hvalue, readLine_sampleText hname hlabels hvalue⟩

theorem readText_unlines {texts : List (List Char)} {lines : List Line}
    (h : List.Forall₂ Spells texts lines) : readText (unlines '\n' texts) = some lines := by
  have htexts : ∀ text ∈ texts, '\n' ∉ text := by
    induction h with
    | nil => exact List.forall_mem_nil _
    | cons htext _ ih => exact List.forall_mem_cons.mpr ⟨htext.1, ih⟩
  have hlines : texts.mapM readLine = some lines := by
    clear htexts
    induction h with
    | nil => rfl
    | cons htext _ ih => rw [List.mapM_cons, htext.2, ih]; rfl
  have hsplit := splitOn_unlines htexts
  have hlast : lastPart '\n' (unlines '\n' texts) = [] := by
    rw [lastPart, hsplit, List.getLastD_concat]
  rw [readText, if_pos hlast, completeLines, hsplit, List.dropLast_concat, hlines]

end Text

end Library.Exposition
