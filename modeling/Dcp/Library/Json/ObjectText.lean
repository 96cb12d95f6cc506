import Dcp.Library.Json.Codec

/-!
Reading the text of an object that another writer than the printer has put together member by
member. Its strings may be escaped in another way, and its keys may repeat: the last member with a
key wins.
-/

namespace Library

namespace Members

/-- Insert members one after the other, so that a later one replaces an earlier one. -/
def insertAll (acc members : Members) : Members :=
  members.foldl (fun (acc : Members) m => acc.insert m.1 m.2) acc

theorem insertAll_append (acc first second : Members) :
    acc.insertAll (first ++ second) = (acc.insertAll first).insertAll second :=
  List.foldl_append

theorem get_insertAll_of_notMem {members : Members} {key : String} (h : key ∉ members.keys)
    (acc : Members) : (acc.insertAll members).get key = acc.get key := by
  induction members generalizing acc with
  | nil => rfl
  | cons m rest ih =>
      obtain ⟨hne, hrest⟩ := not_or.mp (fun hmem => h (List.mem_cons.mpr hmem))
      rw [insertAll, List.foldl_cons]
      exact (ih hrest _).trans (by rw [get_insert, if_neg hne])

/-- A member whose key occurs once is there in the end. -/
theorem get_insertAll_of_mem {members : Members} {key : String} {value : Value}
    (hkeys : members.keys.Nodup) (h : (key, value) ∈ members) (acc : Members) :
    (acc.insertAll members).get key = some value := by
  obtain ⟨first, second, rfl⟩ := List.append_of_mem h
  have hfresh : key ∉ Members.keys second := by
    rw [keys, List.map_append, List.map_cons] at hkeys
    exact (List.nodup_cons.mp (List.nodup_append.mp hkeys).2.1).1
  rw [insertAll_append]
  refine (get_insertAll_of_notMem hfresh _).trans ?_
  rw [get_insert, if_pos rfl]

end Members

namespace Json

variable {write : Char → List Char}

/-- The text is a quoted key, a colon and what is read as the value. -/
def SpellsMember (write : Char → List Char) (text : List Char) (m : String × Value) : Prop :=
  ∃ value, text = quoted write m.1.toList ++ ':' :: value ∧
    ∀ fuel r, Delimited r → readValue (fuel + 1) (value ++ r) = (m.2.document, some r)

theorem SpellsMember.string (hwrite : Escapes write) (key s : String) :
    SpellsMember write (quoted write key.toList ++ ':' :: quoted write s.toList)
      (key, .string s) := by
  refine ⟨_, rfl, fun fuel r _ => ?_⟩
  rw [readValue_quoted hwrite, String.ofList_toList, Value.document]

theorem SpellsMember.int (key : String) (n : JsonInt) :
    SpellsMember write (quoted write key.toList ++ ':' :: printInt n.val)
      (key, .number (.int n)) :=
  ⟨_, rfl, fun fuel _ hr => readValue_printInt n fuel hr⟩

theorem SpellsMember.bool (key : String) (b : Bool) :
    SpellsMember write (quoted write key.toList ++ ':' :: print (.bool b)) (key, .bool b) := by
  refine ⟨_, rfl, fun fuel r _ => ?_⟩
  cases b <;> rfl

theorem SpellsMember.null (key : String) :
    SpellsMember write (quoted write key.toList ++ ':' :: print .null) (key, .null) :=
  ⟨_, rfl, fun _ _ _ => rfl⟩

/-- The members after the first one of an object, each after a comma. -/
def restText (texts : List (List Char)) : List Char := texts.flatMap (',' :: ·)

theorem delimited_restText (texts : List (List Char)) (r : List Char) :
    Delimited (restText texts ++ '\x7d' :: r) := by
  cases texts with
  | nil => exact delimited_cons r (.inr (.inr rfl))
  | cons text texts => exact delimited_cons _ (.inl rfl)

/-- The induction is on the members; each of them takes a unit of fuel, and its value one more. -/
theorem readMembers_spelled (hwrite : Escapes write) {texts : List (List Char)} {members : Members}
    (h : List.Forall₂ (SpellsMember write) texts members) (r : List Char) (fuel : Nat)
    (hfuel : members.length + 2 ≤ fuel) :
    readMembers fuel (restText texts ++ '\x7d' :: r) =
      (Value.documentMembers members, none, some r) := by
  induction h generalizing fuel with
  | nil =>
      obtain ⟨fuel, rfl⟩ : ∃ n, fuel = n + 1 := ⟨fuel - 1, by omega⟩
      rfl
  | @cons text m texts members hm _ ih =>
      obtain ⟨value, rfl, hvalue⟩ := hm
      rw [List.length_cons] at hfuel
      obtain ⟨fuel, rfl⟩ : ∃ n, fuel = n + 2 := ⟨fuel - 2, by omega⟩
      have hrest := ih (fuel + 1) (by omega)
      have hkey := readKey_quoted hwrite m.1.toList
        (value ++ (restText texts ++ '\x7d' :: r))
      have hread := hvalue fuel _ (delimited_restText texts r)
      rw [String.ofList_toList] at hkey
      simp only [restText, List.flatMap_cons, List.cons_append, List.append_assoc]
        at hrest hkey hread ⊢
      rw [readMembers, skipBlanks_cons _ (by decide)]
      simp only [Char.reduceEq, if_false, if_true, hkey, hread, hrest]
      rfl

theorem readValue_spelled (hwrite : Escapes write) {text : List Char} {m : String × Value}
    {texts : List (List Char)} {members : Members} (hm : SpellsMember write text m)
    (h : List.Forall₂ (SpellsMember write) texts members) (r : List Char) (fuel : Nat)
    (hfuel : members.length + 4 ≤ fuel) :
    readValue fuel ('\x7b' :: (text ++ (restText texts ++ '\x7d' :: r))) =
      (.map (Value.documentMembers (m :: members)) none, some r) := by
  obtain ⟨fuel, rfl⟩ : ∃ n, fuel = n + 1 := ⟨fuel - 1, by omega⟩
  have hmembers := readMembers_spelled hwrite (.cons hm h) r fuel
    (by rw [List.length_cons]; omega)
  obtain ⟨value, rfl, -⟩ := hm
  rw [readValue, skipBlanks_cons _ (by decide)]
  simp only [restText, quoted, List.flatMap_cons, List.cons_append, List.append_assoc] at hmembers ⊢
  rw [skipBlanks_cons _ (by decide)]
  simp only [List.head?_cons, Option.some.injEq, Char.reduceEq, if_false, if_true, hmembers]

theorem length_le_length_restText (texts : List (List Char)) :
    texts.length ≤ (restText texts).length := by
  induction texts with
  | nil => exact Nat.le_refl 0
  | cons text texts ih =>
      simp only [restText, List.flatMap_cons, List.length_append, List.length_cons] at ih ⊢
      omega

/-- An object with at least one member is read as the document of its members. -/
theorem readText_spelled (hwrite : Escapes write) {text : List Char} {m : String × Value}
    {texts : List (List Char)} {members : Members} (hm : SpellsMember write text m)
    (h : List.Forall₂ (SpellsMember write) texts members) :
    JsonCodec.readText (String.ofList ('\x7b' :: (text ++ (restText texts ++ ['\x7d'])))) =
      (.map (Value.documentMembers (m :: members)) none, some []) := by
  have hlength := length_le_length_restText texts
  rw [h.length_eq] at hlength
  rw [JsonCodec.readText, String.toList_ofList]
  refine readValue_spelled hwrite hm h [] _ ?_
  simp only [List.length_cons, List.length_append, List.length_nil]
  omega

theorem buildMembers_documentMembers {members : Members} (h : Value.plainMembers members = true)
    (acc : Members) : Document.buildMembers (Value.documentMembers members) none acc =
      .ok (acc.insertAll members) := by
  induction members generalizing acc with
  | nil => rfl
  | cons m rest ih =>
      rw [Value.plainMembers, Bool.and_eq_true] at h
      rw [Value.documentMembers, Document.buildMembers, Document.build_document m.2 h.1]
      exact ih h.2 _

/-- What is read when the last member with a key wins. -/
theorem readValueText_spelled (hwrite : Escapes write) {text : List Char} {m : String × Value}
    {texts : List (List Char)} {members : Members} (hm : SpellsMember write text m)
    (h : List.Forall₂ (SpellsMember write) texts members)
    (hplain : Value.plainMembers (m :: members) = true) :
    JsonCodec.readValueText (String.ofList ('\x7b' :: (text ++ (restText texts ++ ['\x7d'])))) =
      .ok (.object (Members.insertAll [] (m :: members))) := by
  rw [JsonCodec.readValueText_eq_ok_iff, readText_spelled hwrite hm h, Document.build,
    buildMembers_documentMembers hplain]
  exact ⟨rfl, rfl⟩

end Json
end Library
