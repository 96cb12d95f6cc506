import Dcp.Library.Json.Literal
import Dcp.Observability.Logging
import Dcp.Security.RedactionLaws

/-!
The strings of a log line are JSON string literals, each of the string it was written for; and what
a reader of the line finds under the names of the fixed members. The line is always the text of an
object; the members of an entry are its own unless a field takes one of their names.
-/

namespace Dcp.Observability
open Library

theorem escapes_escapeJsonChar : Json.Escapes escapeJsonChar := by
  have hhex : ∀ n < 160, List.leftpad 4 '0' (Nat.toDigits 16 n) =
      ['0', '0', Nat.digitChar (n / 16), Nat.digitChar (n % 16)] := by decide +kernel
  intro c
  by_cases hquote : c = '"'
  · subst hquote
    exact .inr ⟨_, rfl, fun _ => rfl⟩
  by_cases hslash : c = '\\'
  · subst hslash
    exact .inr ⟨_, rfl, fun _ => rfl⟩
  by_cases hn : c = '\n'
  · subst hn
    exact .inr ⟨_, rfl, fun _ => rfl⟩
  by_cases hr : c = '\r'
  · subst hr
    exact .inr ⟨_, rfl, fun _ => rfl⟩
  by_cases ht : c = '\t'
  · subst ht
    exact .inr ⟨_, rfl, fun _ => rfl⟩
  cases hcontrol : isControl c with
  | true =>
      have hlt : c.toNat < 160 := by
        simp only [isControl, Bool.or_eq_true, Bool.and_eq_true, decide_eq_true_eq] at hcontrol
        omega
      refine .inr ⟨_, ?_, Json.unescape_hex (by omega)⟩
      rw [escapeJsonChar, if_neg hquote, if_neg hslash, if_neg hn, if_neg hr, if_neg ht, hcontrol,
        if_pos rfl, hhex _ hlt]
      rfl
  | false =>
      refine .inl ⟨?_, hquote, hslash, ?_⟩
      · rw [escapeJsonChar, if_neg hquote, if_neg hslash, if_neg hn, if_neg hr, if_neg ht, hcontrol]
        rfl
      · intro hlow
        rw [isControl, decide_eq_true hlow] at hcontrol
        cases hcontrol

theorem readValueText_escapeJsonString (s : String) :
    JsonCodec.readValueText (String.ofList (escapeJsonString s)) = .ok (.string s) := by
  have hlength : 2 * (escapeJsonString s).length = 2 * (escapeJsonString s).length - 1 + 1 := by
    rw [escapeJsonString, List.length_cons]
    omega
  have hread := Json.readValue_quoted escapes_escapeJsonChar s.toList
    (2 * (escapeJsonString s).length - 1) []
  rw [← hlength, List.append_nil, String.ofList_toList] at hread
  rw [JsonCodec.readValueText_eq_ok_iff, JsonCodec.readText, String.toList_ofList]
  exact ⟨congrArg (fun read => read.1.build) hread, congrArg (fun read =>
    JsonCodec.trailingError read.2) hread⟩

/-- An escaped string is one literal, and decoding gives the string back. -/
theorem escapeJsonString_decoded (s : String) :
    Json.Literal (escapeJsonString s) s.toList ∧
      (∀ text, Json.Literal (escapeJsonString s) text → text = s.toList) ∧
      (∀ front rest text, escapeJsonString s = front ++ rest → Json.Literal front text →
        rest = []) ∧
      (∀ c ∈ escapeJsonString s, 32 ≤ c.toNat) ∧
      JsonCodec.readValueText (String.ofList (escapeJsonString s)) = .ok (.string s) := by
  have hliteral : Json.Literal (escapeJsonString s) s.toList :=
    Json.literal_quoted escapes_escapeJsonChar s.toList
  refine ⟨hliteral, fun text htext => htext.unique hliteral, fun front rest text heq hfront => ?_,
    hliteral.no_control, readValueText_escapeJsonString s⟩
  rw [heq] at hliteral
  exact hfront.whole hliteral

/-- What a reader makes of a field's value. -/
def LogValue.toValue : LogValue → Value
  | .string s => .string s
  | .int i => .ofI64 i
  | .float bits => .number (.float bits)
  | .bool b => .bool b
  | .null => .null

def LogValue.isFloat : LogValue → Bool
  | .float _ => true
  | _ => false

theorem plain_toValue {value : LogValue} (h : value.isFloat = false) :
    value.toValue.plain = true := by
  cases value <;> first | rfl | cases h

theorem spells_toJson (showFloat : UInt64 → String) (key : String) {value : LogValue}
    (h : value.isFloat = false) :
    Json.SpellsMember escapeJsonChar (escapeJsonString key ++ ':' :: value.toJson showFloat)
      (key, value.toValue) := by
  cases value with
  | string s => exact .string escapes_escapeJsonChar key s
  | int i => exact Json.SpellsMember.int key ⟨i.val, _⟩
  | float bits => cases h
  | bool b =>
      have hbool := @Json.SpellsMember.bool escapeJsonChar key b
      cases b <;> exact hbool
  | null => exact .null key

theorem uint64_range (n : UInt64) :
    -9223372036854775808 ≤ (n.toNat : Int) ∧ (n.toNat : Int) < 18446744073709551616 := by
  have hlt := n.toNat_lt
  omega

theorem uint32_range (n : UInt32) :
    -9223372036854775808 ≤ (n.toNat : Int) ∧ (n.toNat : Int) < 18446744073709551616 := by
  have hlt := n.toNat_lt
  omega

namespace LogEntry

/-- The members of a line that are the entry's own. -/
def own (entry : LogEntry) (serviceName : String) : Members :=
  [("timestamp", .number (.int ⟨entry.timestamp.toNat, uint64_range _⟩)),
    ("level", .string entry.level.toText),
    ("message", .string (sanitizeText entry.message)),
    ("service", .string (sanitizeText serviceName))]

/-- The members that may be absent, of a copy that is sanitized. -/
def optional (entry : LogEntry) : Members :=
  (entry.requestId.toList.map fun id => ("request_id", .string id)) ++
  (entry.traceId.toList.map fun id => ("trace_id", .string id)) ++
  (entry.file.toList.map fun file => ("file", .string file)) ++
  (entry.line.toList.map fun line => ("line", .number (.int ⟨line.toNat, uint32_range _⟩)))

def fieldMembers (order : FieldOrder) (entry : LogEntry) : Members :=
  (order.arrange entry.fields.toPairs).map fun field => (field.1, field.2.toValue)

theorem member_eq {name : String} (h : name.toList.flatMap escapeJsonChar = name.toList)
    (value : List Char) :
    member name value = Json.quoted escapeJsonChar name.toList ++ ':' :: value := by
  simp [member, Json.quoted, h]

theorem spells_string (name : String) (h : name.toList.flatMap escapeJsonChar = name.toList)
    (s : String) :
    Json.SpellsMember escapeJsonChar (member name (escapeJsonString s)) (name, .string s) := by
  rw [member_eq h]
  exact .string escapes_escapeJsonChar name s

theorem spells_number (name : String) (h : name.toList.flatMap escapeJsonChar = name.toList)
    (n : JsonInt) :
    Json.SpellsMember escapeJsonChar (member name (Json.printInt n.val))
      (name, .number (.int n)) := by
  rw [member_eq h]
  exact .int name n

theorem spells_level (level : LogLevel) :
    Json.SpellsMember escapeJsonChar (member "level" ('"' :: (level.toText.toList ++ ['"'])))
      ("level", .string level.toText) := by
  have htext : '"' :: (level.toText.toList ++ ['"']) = escapeJsonString level.toText := by
    cases level <;> decide
  rw [htext]
  exact spells_string "level" (by decide) level.toText

theorem forall₂_option {α : Type} (write : α → List Char) (read : α → String × Value)
    (h : ∀ a, Json.SpellsMember escapeJsonChar (write a) (read a)) (value : Option α) :
    List.Forall₂ (Json.SpellsMember escapeJsonChar) (value.toList.map write)
      (value.toList.map read) := by
  rw [List.forall₂_map_left_iff, List.forall₂_map_right_iff]
  exact List.forall₂_same.mpr fun a _ => h a

theorem spells_memberTexts (showFloat : UInt64 → String) (order : FieldOrder) (entry : LogEntry)
    (serviceName : String)
    (hfloat : ∀ field ∈ entry.fields.toPairs, field.2.isFloat = false) :
    ∃ text texts, memberTexts showFloat order entry serviceName = text :: texts ∧
      Json.SpellsMember escapeJsonChar text
        ("timestamp", .number (.int ⟨entry.timestamp.toNat, uint64_range _⟩)) ∧
      List.Forall₂ (Json.SpellsMember escapeJsonChar) texts
        ([("level", .string entry.level.toText), ("message", .string entry.message),
          ("service", .string (sanitizeText serviceName))] ++ entry.optional ++
          entry.fieldMembers order) := by
  refine ⟨_, _, rfl, spells_number "timestamp" (by decide)
    ⟨entry.timestamp.toNat, uint64_range _⟩, ?_⟩
  refine .cons (spells_level entry.level) (.cons (spells_string "message" (by decide) _)
    (.cons (spells_string "service" (by decide) _) ?_))
  refine List.rel_append ?_ ?_
  · refine List.rel_append (List.rel_append (List.rel_append ?_ ?_) ?_) ?_
    · exact forall₂_option _ _ (spells_string "request_id" (by decide)) _
    · exact forall₂_option _ _ (spells_string "trace_id" (by decide)) _
    · exact forall₂_option _ _ (spells_string "file" (by decide)) _
    · exact forall₂_option _ _
        (fun line => spells_number "line" (by decide) ⟨line.toNat, uint32_range line⟩) _
  · rw [fieldMembers, List.forall₂_map_left_iff, List.forall₂_map_right_iff]
    refine List.forall₂_same.mpr fun field hfield => ?_
    exact spells_toJson showFloat field.1 (hfloat field ((order.perm _).mem_iff.mp hfield))

/-- Commas follow the members; without the last one they stand between them. -/
theorem flatMap_comma (text : List Char) (texts : List (List Char)) :
    (text :: texts).flatMap (· ++ [',']) = text ++ Json.restText texts ++ [','] := by
  induction texts generalizing text with
  | nil => simp [Json.restText]
  | cons next texts ih =>
      rw [List.flatMap_cons, ih]
      simp [Json.restText]

theorem toJson_eq {showFloat : UInt64 → String} {order : FieldOrder} {entry : LogEntry}
    {serviceName : String} {text : List Char} {texts : List (List Char)}
    (h : memberTexts showFloat order entry.sanitizedCopy serviceName = text :: texts) :
    entry.toJson showFloat order serviceName =
      String.ofList ('\x7b' :: (text ++ (Json.restText texts ++ ['\x7d']))) := by
  rw [toJson, h, flatMap_comma]
  have hlast : ('\x7b' :: (text ++ Json.restText texts ++ [','])).getLast? = some ',' := by
    rw [← List.cons_append, List.getLast?_concat]
  simp only [hlast, if_true]
  rw [← List.cons_append, List.dropLast_concat, List.cons_append, List.append_assoc]

theorem sanitizeFields_eq (fields : List (String × LogValue)) :
    sanitizeFields fields =
      (fields.map fun field => (sanitizeFieldKey field.1, sanitizeLogValue field.1 field.2)).foldl
        (fun t pair => AList.insert pair.1 pair.2 t) (∅ : Table String LogValue) := by
  rw [List.foldl_map]
  rfl

/-- A field whose name no other is changed to keeps its place. -/
theorem lookup_sanitizeFields {name : String} (hkept : sanitizeFieldKey name = name)
    (hname : ∀ key, sanitizeFieldKey key = name → key = name) (fields : Table String LogValue) :
    (sanitizeFields fields.toPairs).lookup name =
      (fields.lookup name).map (sanitizeLogValue name) := by
  have hfield : ∀ value, (name, value) ∈ (fields.toPairs.map fun field =>
      (sanitizeFieldKey field.1, sanitizeLogValue field.1 field.2)) →
      ∃ own, fields.lookup name = some own ∧ sanitizeLogValue name own = value := by
    intro value hvalue
    obtain ⟨⟨key, own⟩, hpair, heq⟩ := List.mem_map.mp hvalue
    obtain ⟨hkey, hown⟩ := Prod.mk.inj heq
    obtain rfl := hname key hkey
    exact ⟨own, Table.mem_toPairs_iff.mp hpair, hown⟩
  rw [sanitizeFields_eq]
  cases hlookup : fields.lookup name with
  | none =>
      rw [Table.lookup_foldl_insert_of_notMem]
      · rfl
      · intro hmem
        obtain ⟨⟨_, value⟩, hvalue, rfl⟩ := List.mem_map.mp hmem
        obtain ⟨own, hown, -⟩ := hfield value hvalue
        rw [hlookup] at hown
        cases hown
  | some own =>
      refine Table.lookup_foldl_insert_of_mem ?_ (fun value hvalue => ?_) ∅
      · refine List.mem_map.mpr ⟨(name, own), Table.mem_toPairs_iff.mpr hlookup, ?_⟩
        rw [hkept]
      · obtain ⟨other, hother, rfl⟩ := hfield value hvalue
        rw [Option.some.inj (hlookup.symm.trans hother)]

theorem isFloat_sanitizeLogValue (key : String) (value : LogValue) (h : value.isFloat = false) :
    (sanitizeLogValue key value).isFloat = false := by
  cases value with
  | string s => rfl
  | float bits => cases h
  | int i | bool b | null =>
      rw [sanitizeLogValue]
      · split <;> rfl
      · simp

theorem isFloat_sanitizeFields {fields : List (String × LogValue)}
    (h : ∀ field ∈ fields, field.2.isFloat = false) :
    ∀ field ∈ (sanitizeFields fields).toPairs, field.2.isFloat = false := by
  intro field hfield
  have hlookup := Table.mem_toPairs_iff.mp hfield
  rw [sanitizeFields_eq] at hlookup
  rcases Table.mem_of_lookup_foldl_insert hlookup with hmem | hempty
  · obtain ⟨source, hsource, heq⟩ := List.mem_map.mp hmem
    rw [← (Prod.mk.inj heq).2]
    exact isFloat_sanitizeLogValue source.1 source.2 (h source hsource)
  · cases hempty

/-- The names of the fixed members. -/
def ownNames : List String := ["timestamp", "level", "message", "service"]

/-- Redaction leaves the names of the fixed members alone, and turns no other key into one. -/
theorem sanitizeFieldKey_ownNames {name : String} (h : name ∈ ownNames) :
    sanitizeFieldKey name = name ∧ ∀ key, sanitizeFieldKey key = name → key = name := by
  have hkept : ∀ name ∈ ownNames, isPlainText (name.toList.map Char.toLower) = true ∧
      REDACTED ≠ name := by
    decide +kernel
  obtain ⟨hplain, hne⟩ := hkept name h
  refine ⟨sanitizeFieldKey_plain (String.ofList_toList).symm hplain, fun key hkey => ?_⟩
  rcases sanitizeFieldKey_cases key with hsame | hmarker
  · exact hsame.symm.trans hkey
  · exact absurd (hmarker.symm.trans hkey) hne

theorem keys_own (entry : LogEntry) (serviceName : String) :
    (entry.own serviceName).keys = ownNames := rfl

theorem optional_notMem (entry : LogEntry) {name : String} (h : name ∈ ownNames) :
    name ∉ entry.optional.keys := by
  have hnames : ∀ key ∈ entry.optional.keys,
      key = "request_id" ∨ key = "trace_id" ∨ key = "file" ∨ key = "line" := by
    simp only [optional, Members.keys, List.map_append, List.map_map, List.mem_append,
      List.mem_map, Function.comp_apply]
    rintro key (((⟨_, _, rfl⟩ | ⟨_, _, rfl⟩) | ⟨_, _, rfl⟩) | ⟨_, _, rfl⟩) <;> simp
  intro hmem
  have hdiffer : ∀ name ∈ ownNames, name ≠ "request_id" ∧ name ≠ "trace_id" ∧ name ≠ "file" ∧
      name ≠ "line" := by decide
  rcases hnames name hmem with heq | heq | heq | heq
  · exact (hdiffer name h).1 heq
  · exact (hdiffer name h).2.1 heq
  · exact (hdiffer name h).2.2.1 heq
  · exact (hdiffer name h).2.2.2 heq

theorem keys_fieldMembers (order : FieldOrder) (entry : LogEntry) :
    (entry.fieldMembers order).keys.Perm (entry.fields.toPairs.map Prod.fst) := by
  rw [Members.keys, fieldMembers, List.map_map]
  exact (order.perm _).map Prod.fst

theorem plain_optional (entry : LogEntry) : ∀ m ∈ entry.optional, m.2.plain = true := by
  simp only [optional, List.mem_append, List.mem_map]
  rintro m (((⟨_, _, rfl⟩ | ⟨_, _, rfl⟩) | ⟨_, _, rfl⟩) | ⟨_, _, rfl⟩) <;> rfl

theorem plain_fieldMembers (order : FieldOrder) {entry : LogEntry}
    (hfloat : ∀ field ∈ entry.fields.toPairs, field.2.isFloat = false) :
    ∀ m ∈ entry.fieldMembers order, m.2.plain = true := by
  intro m hm
  obtain ⟨field, hfield, rfl⟩ := List.mem_map.mp hm
  exact plain_toValue (hfloat field ((order.perm _).mem_iff.mp hfield))

/-- A log line is the text of an object: the entry's own members, and the fields after them. -/
theorem readValueText_toJson (showFloat : UInt64 → String) (order : FieldOrder) (entry : LogEntry)
    (serviceName : String) (hfloat : ∀ field ∈ entry.fields.toPairs, field.2.isFloat = false) :
    JsonCodec.readValueText (entry.toJson showFloat order serviceName) =
      .ok (.object (Members.insertAll [] (entry.own serviceName ++ entry.sanitizedCopy.optional ++
        entry.sanitizedCopy.fieldMembers order))) := by
  have hfields : ∀ field ∈ entry.sanitizedCopy.fields.toPairs, field.2.isFloat = false := by
    rw [sanitizedCopy]
    exact isFloat_sanitizeFields hfloat
  obtain ⟨text, texts, htexts, hfirst, hrest⟩ :=
    spells_memberTexts showFloat order entry.sanitizedCopy serviceName hfields
  rw [toJson_eq htexts, Json.readValueText_spelled escapes_escapeJsonChar hfirst hrest]
  · rw [own, sanitizedCopy]
    rfl
  · simp only [Value.plainMembers_iff, List.forall_mem_cons, List.forall_mem_append]
    exact ⟨rfl, ⟨⟨rfl, rfl, rfl, by simp⟩, plain_optional _⟩, plain_fieldMembers order hfields⟩

/-- A reader finds a field that has the name of a fixed member, or else the member. -/
theorem get_toJson {order : FieldOrder} {entry : LogEntry} {serviceName : String}
    {m : String × Value} (hm : m ∈ entry.own serviceName) :
    Members.get (Members.insertAll [] (entry.own serviceName ++ entry.sanitizedCopy.optional ++
        entry.sanitizedCopy.fieldMembers order)) m.1 =
      some (((entry.fields.lookup m.1).map fun value =>
        (sanitizeLogValue m.1 value).toValue).getD m.2) := by
  have hname : m.1 ∈ ownNames := by
    rw [← keys_own entry serviceName]
    exact List.mem_map_of_mem hm
  obtain ⟨hkept, honly⟩ := sanitizeFieldKey_ownNames hname
  have hfields : entry.sanitizedCopy.fields.lookup m.1 =
      (entry.fields.lookup m.1).map (sanitizeLogValue m.1) := by
    rw [sanitizedCopy]
    exact lookup_sanitizeFields hkept honly entry.fields
  rw [Members.insertAll_append]
  cases hlookup : entry.fields.lookup m.1 with
  | some value =>
      rw [hlookup] at hfields
      have hfield : (m.1, (sanitizeLogValue m.1 value).toValue) ∈
          entry.sanitizedCopy.fieldMembers order :=
        List.mem_map.mpr ⟨_, (order.perm _).mem_iff.mpr (Table.mem_toPairs_iff.mpr hfields), rfl⟩
      refine Members.get_insertAll_of_mem ?_ hfield _
      rw [(keys_fieldMembers order _).nodup_iff]
      exact entry.sanitizedCopy.fields.nodup_keys_toPairs
  | none =>
      rw [hlookup] at hfields
      have habsent : m.1 ∉ (entry.sanitizedCopy.fieldMembers order).keys := by
        rw [(keys_fieldMembers order _).mem_iff]
        intro hmem
        obtain ⟨field, hfield, heq⟩ := List.mem_map.mp hmem
        rw [← heq, Table.mem_toPairs_iff.mp hfield] at hfields
        cases hfields
      rw [Members.get_insertAll_of_notMem habsent, Members.insertAll_append,
        Members.get_insertAll_of_notMem (optional_notMem _ hname)]
      refine Members.get_insertAll_of_mem ?_ hm _
      rw [keys_own]
      decide

/-- Read as JSON, with the last of the members that have a name, the line is an object with the
given members. -/
def Shows (line : String) (own : Members) : Prop :=
  ∃ members : Members, JsonCodec.readValueText line = .ok (.object members) ∧
    ∀ m ∈ own, members.get m.1 = some m.2

/-- A line without floats shows the entry's own members exactly when each field that has the name of
one of them also has its value. -/
theorem toJson_shows_own_iff (showFloat : UInt64 → String) (order : FieldOrder) (entry : LogEntry)
    (serviceName : String) (hfloat : ∀ field ∈ entry.fields.toPairs, field.2.isFloat = false) :
    Shows (entry.toJson showFloat order serviceName) (entry.own serviceName) ↔
      ∀ m ∈ entry.own serviceName, ∀ value, entry.fields.lookup m.1 = some value →
        (sanitizeLogValue m.1 value).toValue = m.2 := by
  have hread := readValueText_toJson showFloat order entry serviceName hfloat
  constructor
  · rintro ⟨members, hmembers, hown⟩ m hm value hvalue
    rw [hread, Except.ok.injEq, Value.object.injEq] at hmembers
    have hget := hown m hm
    rw [← hmembers, get_toJson hm, hvalue] at hget
    exact Option.some.inj hget
  · intro hfields
    refine ⟨_, hread, fun m hm => ?_⟩
    rw [get_toJson hm]
    cases hvalue : entry.fields.lookup m.1 with
    | none => rfl
    | some value => exact congrArg some (hfields m hm value hvalue)

/-- An entry with a single field. -/
def startedEntry (key : String) (value : LogValue) : LogEntry :=
  (LogEntry.new .info "started" 0).withField key value

theorem toPairs_startedEntry (key : String) (value : LogValue) :
    (startedEntry key value).fields.toPairs =
      [(sanitizeFieldKey key, sanitizeLogValue key value)] := by
  have hsingle : ∀ (k : String) (v : LogValue),
      Table.toPairs (AList.insert k v (∅ : Table String LogValue)) = [(k, v)] := fun _ _ => rfl
  rw [startedEntry, LogEntry.new, withField]
  exact hsingle _ _

def startedLine (key : String) (value : LogValue) : String :=
  (startedEntry key value).toJson (fun _ => "") ⟨id, Table.perm_id⟩ "dcp-server"

theorem startedEntry_shows_own :
    Shows (startedLine "user" (.string "\",\"level\":\"ERROR"))
      ((startedEntry "user" (.string "\",\"level\":\"ERROR")).own "dcp-server") := by
  refine (toJson_shows_own_iff _ _ _ _ ?_).mpr ?_
  · rw [toPairs_startedEntry, List.forall_mem_singleton]
    exact isFloat_sanitizeLogValue "user" (.string "\",\"level\":\"ERROR") rfl
  · intro m hm value hvalue
    have hname : m.1 ∈ ownNames := by
      rw [← keys_own]
      exact List.mem_map_of_mem hm
    have hpair := Table.mem_toPairs_iff.mpr hvalue
    rw [toPairs_startedEntry, List.mem_singleton, Prod.mk.injEq] at hpair
    have huser : sanitizeFieldKey "user" = "user" :=
      sanitizeFieldKey_plain (String.ofList_toList).symm (by decide)
    rw [huser] at hpair
    rw [hpair.1] at hname
    exact absurd hname (by decide)

/-- A field may be named as the level is, and follows it in the line. -/
theorem startedEntry_forged :
    ¬ Shows (startedLine "level" (.string "ERROR"))
      ((startedEntry "level" (.string "ERROR")).own "dcp-server") := by
  rintro ⟨members, hmembers, hown⟩
  have hread := readValueText_toJson (fun _ => "") ⟨id, Table.perm_id⟩
    (startedEntry "level" (.string "ERROR")) "dcp-server" (by
      rw [toPairs_startedEntry, List.forall_mem_singleton]
      exact isFloat_sanitizeLogValue "level" (.string "ERROR") rfl)
  rw [startedLine, hread, Except.ok.injEq, Value.object.injEq] at hmembers
  have hlevel : (("level", .string "INFO") : String × Value) ∈
      (startedEntry "level" (.string "ERROR")).own "dcp-server" :=
    List.mem_cons_of_mem _ List.mem_cons_self
  have hkey : sanitizeFieldKey "level" = "level" := (sanitizeFieldKey_ownNames (by decide)).1
  have hvalue : sanitizeLogValue "level" (.string "ERROR") = .string "ERROR" := by
    have hsafe : isSensitiveKey "level" = false := by decide +kernel
    have herror : looksSensitiveValue "ERROR" = false :=
      looksSensitiveValue_plain (String.ofList_toList).symm (by decide)
    rw [sanitizeLogValue, sanitizeFieldValue, hsafe, herror]
    rfl
  have hfield : (startedEntry "level" (.string "ERROR")).fields.lookup "level" =
      some (.string "ERROR") := by
    rw [← Table.mem_toPairs_iff, toPairs_startedEntry, hkey, hvalue]
    exact List.mem_singleton_self _
  have hget := hown _ hlevel
  rw [← hmembers, get_toJson hlevel, hfield, Option.map_some, hvalue, Option.getD_some,
    LogValue.toValue, Option.some.injEq, Value.string.injEq] at hget
  exact absurd hget (by decide)

end LogEntry

end Dcp.Observability
