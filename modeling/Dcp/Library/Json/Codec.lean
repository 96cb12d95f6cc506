import Dcp.Library.Json.RoundTrip

/-!
A JSON codec: what its deserializer hands to a reader, how values are read from text and
bytes, and how they are written. The laws say that writing never fails and that the text
of a plain value, when it is not nested too deeply, is read back as that value. The
reference codec has both.
-/

namespace Library

structure JsonCodec where
  /-- What the deserializer reads from a text. -/
  document : String → Document
  /-- The error about what follows the first value, if something does. -/
  trailing : String → Option String
  /-- The text of an error that a reader raises itself while the text is read. -/
  customError : String → String → String
  fromStr : String → Except String Value
  fromSlice : List UInt8 → Except String Value
  toText : Value → Except String String
  toVec : Value → Except String (List UInt8)

namespace JsonCodec

/-- The text is read as the document of the value, and nothing follows it. -/
structure ReadsBack (codec : JsonCodec) (value : Value) (text : String) : Prop where
  document : codec.document text = value.document
  trailing : codec.trailing text = none
  fromStr : codec.fromStr text = .ok value

structure Lawful (codec : JsonCodec) (maxDepth : Nat) : Prop where
  total : ∀ value, ∃ text, codec.toText value = .ok text
  roundTrip : ∀ value text, value.plain = true → value.depth ≤ maxDepth →
    codec.toText value = .ok text → codec.ReadsBack value text

/-- A value is read from what the deserializer hands out, and from nothing else, when nothing
follows it. -/
def ReadsDocuments (codec : JsonCodec) : Prop :=
  ∀ text value, codec.fromStr text = .ok value ↔
    (codec.document text).build = .ok value ∧ codec.trailing text = none

/-- Plain values with the same text are equal, when they are not nested too deeply. -/
theorem Lawful.value_unique {codec : JsonCodec} {maxDepth : Nat} (h : codec.Lawful maxDepth)
    {v w : Value} {text : String} (hv : v.plain = true) (hvdepth : v.depth ≤ maxDepth)
    (hvtext : codec.toText v = .ok text) (hw : w.plain = true) (hwdepth : w.depth ≤ maxDepth)
    (hwtext : codec.toText w = .ok text) : v = w := by
  have hread := (h.roundTrip v text hv hvdepth hvtext).fromStr
  rw [(h.roundTrip w text hw hwdepth hwtext).fromStr] at hread
  exact (Except.ok.inj hread).symm

/-- The document of a text, and the rest of the text unless there was an error. -/
def readText (text : String) : Document × Option (List Char) :=
  Json.readValue (2 * text.toList.length) text.toList

def trailingError (rest : Option (List Char)) : Option String :=
  match rest with
  | some rest => if (Json.skipBlanks rest).isEmpty then none else some "trailing characters"
  | none => none

def readValueText (text : String) : Except String Value := do
  let value ← (readText text).1.build
  match trailingError (readText text).2 with
  | some message => .error message
  | none => .ok value

def printText (value : Value) : String := String.ofList (Json.print value)

/-- The codec made of the printer and the reader of this library. -/
def reference : JsonCodec where
  document text := (readText text).1
  trailing text := trailingError (readText text).2
  customError _ message := message
  fromStr := readValueText
  fromSlice bytes :=
    match String.fromUTF8? ⟨bytes.toArray⟩ with
    | some text => readValueText text
    | none => .error "invalid unicode code point"
  toText value := .ok (printText value)
  toVec value := .ok (utf8 (printText value))

theorem readValueText_eq_ok_iff {text : String} {value : Value} :
    readValueText text = .ok value ↔
      (readText text).1.build = .ok value ∧ trailingError (readText text).2 = none := by
  rw [readValueText]
  cases hbuild : (readText text).1.build with
  | error e => exact iff_of_false (by simp [bind, Except.bind]) (by simp)
  | ok v => cases htrailing : trailingError (readText text).2 <;> simp [bind, Except.bind]

theorem reference_readsDocuments : reference.ReadsDocuments :=
  fun _ _ => readValueText_eq_ok_iff

theorem readText_printText (value : Value) (h : value.plain = true) :
    readText (printText value) = (value.document, some []) := by
  have hread := Json.readValue_print value (2 * (Json.print value).length) [] h
    Json.delimited_nil (by simp)
  simpa [readText, printText] using hread

theorem reference_lawful (maxDepth : Nat) : reference.Lawful maxDepth where
  total value := ⟨_, rfl⟩
  roundTrip value text hplain _ htext := by
    cases htext
    have hread := readText_printText value hplain
    have htrailing : trailingError (some []) = none := by simp [trailingError, Json.skipBlanks]
    refine ⟨by simp [reference, hread], by simp [reference, hread, htrailing], ?_⟩
    simp only [reference, readValueText, hread, Document.build_document value hplain]
    rfl

end JsonCodec
end Library
