import Dcp.Library.Json.Value

/-!
What a deserializer reads from a text: a tree of the values it hands out, in order, where
a sequence or a map may stop with an error and a value may fail to be read at all. Keys may
repeat in a map of a document: what to do with them is the reader's choice.
-/

namespace Library

inductive Document
  | null
  | bool (b : Bool)
  | number (n : Number)
  | string (s : String)
  | seq (items : List Document) (stop : Option String)
  | map (members : List (String × Document)) (stop : Option String)
  | error (message : String)

mutual

/-- What a deserializer reads from a text of the value. -/
def Value.document : Value → Document
  | .null => .null
  | .bool b => .bool b
  | .number n => .number n
  | .string s => .string s
  | .array items => .seq (documentItems items) none
  | .object members => .map (documentMembers members) none

def Value.documentItems : List Value → List Document
  | [] => []
  | v :: rest => v.document :: documentItems rest

def Value.documentMembers : List (String × Value) → List (String × Document)
  | [] => []
  | (k, v) :: rest => (k, v.document) :: documentMembers rest

end

namespace Document

mutual

/-- Read a document as a value; the last member with a key wins. -/
def build : Document → Except String Value
  | .null => .ok .null
  | .bool b => .ok (.bool b)
  | .number n => .ok (.number n)
  | .string s => .ok (.string s)
  | .seq items stop => (buildItems items stop).map .array
  | .map members stop => (buildMembers members stop []).map .object
  | .error message => .error message

def buildItems : List Document → Option String → Except String (List Value)
  | [], none => .ok []
  | [], some message => .error message
  | d :: rest, stop => do
      let v ← d.build
      let vs ← buildItems rest stop
      .ok (v :: vs)

def buildMembers : List (String × Document) → Option String → Members → Except String Members
  | [], none, acc => .ok acc
  | [], some message, _ => .error message
  | (k, d) :: rest, stop, acc => do
      let v ← d.build
      buildMembers rest stop (acc.insert k v)

end

mutual

/-- Reading back the document of a plain value. -/
theorem build_document : ∀ v : Value, v.plain = true → v.document.build = .ok v
  | .null, _ => rfl
  | .bool _, _ => rfl
  | .number _, _ => rfl
  | .string _, _ => rfl
  | .array items, h => by
      rw [Value.document, build, buildItems_document items h]
      rfl
  | .object members, h => by
      rw [Value.plain, Bool.and_eq_true, decide_eq_true_iff] at h
      rw [Value.document, build, buildMembers_document members [] h.2 (by simpa using h.1)]
      rfl

theorem buildItems_document : ∀ items : List Value, Value.plainItems items = true →
    buildItems (Value.documentItems items) none = .ok items
  | [], _ => rfl
  | v :: rest, h => by
      rw [Value.plainItems, Bool.and_eq_true] at h
      rw [Value.documentItems, buildItems, build_document v h.1, buildItems_document rest h.2]
      rfl

theorem buildMembers_document : ∀ (members : List (String × Value)) (acc : Members),
    Value.plainMembers members = true → (Members.keys (acc ++ members)).Nodup →
    buildMembers (Value.documentMembers members) none acc = .ok (acc ++ members)
  | [], acc, _, _ => by
      rw [Value.documentMembers, buildMembers, List.append_nil]
  | (k, v) :: rest, acc, h, hkeys => by
      rw [Value.plainMembers, Bool.and_eq_true] at h
      have hfresh : k ∉ acc.keys := by
        intro hmem
        simp only [Members.keys, List.map_append, List.map_cons, List.nodup_append] at hkeys
        exact hkeys.2.2 k hmem k List.mem_cons_self rfl
      rw [Value.documentMembers, buildMembers, build_document v h.1]
      change buildMembers _ none (acc.insert k v) = _
      rw [Members.insert_of_notMem hfresh, buildMembers_document rest _ h.2 (by simpa using hkeys)]
      simp

end

end Document
end Library
