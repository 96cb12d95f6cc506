import Dcp.Security.PlainText

/-!
The laws of redaction: what it leaves holds no secret, a second redaction changes nothing, and
values that differ in secrets only become the same.
-/

namespace Dcp
open Library

section Marker

theorem redacted_eq :
    REDACTED = String.ofList ['[', 'R', 'E', 'D', 'A', 'C', 'T', 'E', 'D', ']'] := rfl

theorem looksSensitiveValue_redacted : looksSensitiveValue REDACTED = false :=
  looksSensitiveValue_plain redacted_eq (by decide)

theorem isSensitiveKey_redacted : isSensitiveKey REDACTED = false := by
  have hdecoded : percentDecodeAsciiRepeated REDACTED = REDACTED := by
    rw [redacted_eq]
    refine percentDecodeAsciiRepeated_unescaped ?_
    simp only [List.forall_mem_cons]
    exact ⟨by decide, by decide, by decide, by decide, by decide, by decide, by decide, by decide,
      by decide, by decide, List.forall_mem_nil _⟩
  have hnormalized : normalizeKey REDACTED = "[redacted]" := by decide
  rw [isSensitiveKey, hdecoded, hnormalized]
  decide

theorem sanitizeText_redacted : sanitizeText REDACTED = REDACTED := by
  rw [sanitizeText, looksSensitiveValue_redacted]
  rfl

theorem looksSensitiveValue_sanitizeText (s : String) :
    looksSensitiveValue (sanitizeText s) = false := by
  rw [sanitizeText]
  split
  · exact looksSensitiveValue_redacted
  · next h => exact Bool.eq_false_iff.mpr h

theorem sanitizeText_idem (s : String) : sanitizeText (sanitizeText s) = sanitizeText s := by
  rw [sanitizeText, looksSensitiveValue_sanitizeText]
  rfl

theorem sanitizeFieldKey_redacted : sanitizeFieldKey REDACTED = REDACTED := by
  rw [sanitizeFieldKey, looksSensitiveValue_redacted, isSensitiveKey_redacted, Bool.and_false]
  rfl

/-- A key is kept as it is or becomes the marker. -/
theorem sanitizeFieldKey_cases (key : String) :
    sanitizeFieldKey key = key ∨ sanitizeFieldKey key = REDACTED := by
  rw [sanitizeFieldKey]
  split
  · exact .inr rfl
  · exact .inl rfl

theorem sanitizeFieldKey_idem (key : String) :
    sanitizeFieldKey (sanitizeFieldKey key) = sanitizeFieldKey key := by
  rcases sanitizeFieldKey_cases key with hkept | hmarker
  · rw [hkept, hkept]
  · rw [hmarker, sanitizeFieldKey_redacted]

/-- A key that is sensitive still was sensitive before. -/
theorem isSensitiveKey_of_sanitizeFieldKey {key : String}
    (h : isSensitiveKey (sanitizeFieldKey key) = true) : isSensitiveKey key = true := by
  rcases sanitizeFieldKey_cases key with hkept | hmarker
  · rw [hkept] at h
    exact h
  · rw [hmarker, isSensitiveKey_redacted] at h
    cases h

/-- What is kept as a key does not look like a secret. -/
theorem looksSensitiveValue_of_kept {key : String} (h : sanitizeFieldKey key = key) :
    looksSensitiveValue key = false := by
  cases hlooks : looksSensitiveValue key with
  | false => rfl
  | true =>
      rw [sanitizeFieldKey, hlooks, Bool.true_or, if_pos rfl] at h
      rw [← h, looksSensitiveValue_redacted] at hlooks
      cases hlooks

end Marker

mutual

/-- No string and no key looks like a secret, and under a sensitive key there is the marker. -/
def Clean : Value → Prop
  | .string s => looksSensitiveValue s = false
  | .array items => CleanItems items
  | .object members => CleanMembers members
  | .null | .bool _ | .number _ => True

def CleanItems : List Value → Prop
  | [] => True
  | value :: rest => Clean value ∧ CleanItems rest

def CleanMembers : List (String × Value) → Prop
  | [] => True
  | (key, value) :: rest => looksSensitiveValue key = false ∧
      (isSensitiveKey key = true → value = .string REDACTED) ∧ Clean value ∧ CleanMembers rest

end

mutual

/-- The values differ only under sensitive keys and in strings that look like secrets. -/
inductive AgreeButSecrets : Value → Value → Prop
  | same (value : Value) : AgreeButSecrets value value
  | secret {s t : String} (hs : looksSensitiveValue s = true) (ht : looksSensitiveValue t = true) :
      AgreeButSecrets (.string s) (.string t)
  | array {items items' : List Value} (h : AgreeItems items items') :
      AgreeButSecrets (.array items) (.array items')
  | object {members members' : List (String × Value)} (h : AgreeMembers members members') :
      AgreeButSecrets (.object members) (.object members')

inductive AgreeItems : List Value → List Value → Prop
  | nil : AgreeItems [] []
  | cons {value value' : Value} {rest rest' : List Value} (h : AgreeButSecrets value value')
      (hrest : AgreeItems rest rest') : AgreeItems (value :: rest) (value' :: rest')

inductive AgreeMembers : List (String × Value) → List (String × Value) → Prop
  | nil : AgreeMembers [] []
  | secret {key : String} {rest rest' : List (String × Value)} (hkey : isSensitiveKey key = true)
      (value value' : Value) (hrest : AgreeMembers rest rest') :
      AgreeMembers ((key, value) :: rest) ((key, value') :: rest')
  | cons {key : String} {value value' : Value} {rest rest' : List (String × Value)}
      (h : AgreeButSecrets value value') (hrest : AgreeMembers rest rest') :
      AgreeMembers ((key, value) :: rest) ((key, value') :: rest')

end

mutual

theorem AgreeButSecrets.sanitize_eq : ∀ {v w : Value}, AgreeButSecrets v w →
    sanitizeJsonValue v = sanitizeJsonValue w
  | _, _, .same _ => rfl
  | _, _, .secret hs ht => by
      rw [sanitizeJsonValue, sanitizeJsonValue, sanitizeText, sanitizeText, hs, ht]
      rfl
  | _, _, .array h => by rw [sanitizeJsonValue, sanitizeJsonValue, h.sanitize_eq]
  | _, _, .object h => by rw [sanitizeJsonValue, sanitizeJsonValue, h.sanitize_eq]

theorem AgreeItems.sanitize_eq : ∀ {items items' : List Value}, AgreeItems items items' →
    sanitizeItems items = sanitizeItems items'
  | _, _, .nil => rfl
  | _, _, .cons h hrest => by
      rw [sanitizeItems, sanitizeItems, h.sanitize_eq, hrest.sanitize_eq]

theorem AgreeMembers.sanitize_eq : ∀ {members members' : List (String × Value)},
    AgreeMembers members members' → ∀ sanitized : Members,
      sanitizeMembers members sanitized = sanitizeMembers members' sanitized
  | _, _, .nil, _ => rfl
  | _, _, .secret hkey _ _ hrest, sanitized => by
      rw [sanitizeMembers, sanitizeMembers, if_pos hkey, if_pos hkey, hrest.sanitize_eq]
  | _, _, .cons h hrest, sanitized => by
      rw [sanitizeMembers, sanitizeMembers, h.sanitize_eq, hrest.sanitize_eq]

end

mutual

/-- Redaction leaves the value as it is. -/
def Settled : Value → Prop
  | .string s => sanitizeText s = s
  | .array items => SettledItems items
  | .object members => (Members.keys members).Nodup ∧ SettledMembers members
  | .null | .bool _ | .number _ => True

def SettledItems : List Value → Prop
  | [] => True
  | value :: rest => Settled value ∧ SettledItems rest

def SettledMembers : List (String × Value) → Prop
  | [] => True
  | (key, value) :: rest => sanitizeFieldKey key = key ∧
      (isSensitiveKey key = true → value = .string REDACTED) ∧ Settled value ∧ SettledMembers rest

end

theorem settledMembers_iff {members : List (String × Value)} :
    SettledMembers members ↔ ∀ m ∈ members, sanitizeFieldKey m.1 = m.1 ∧
      (isSensitiveKey m.1 = true → m.2 = .string REDACTED) ∧ Settled m.2 := by
  induction members with
  | nil => simp [SettledMembers]
  | cons m rest ih => simp only [SettledMembers, ih, List.forall_mem_cons, and_assoc]

mutual

theorem clean_of_settled : ∀ v : Value, Settled v → Clean v
  | .null, _ | .bool _, _ | .number _, _ => trivial
  | .string _, h => by
      rw [Settled] at h
      rw [Clean, ← h]
      exact looksSensitiveValue_sanitizeText _
  | .array items, h => cleanItems_of_settled items h
  | .object members, h => cleanMembers_of_settled members h.2

theorem cleanItems_of_settled : ∀ items : List Value, SettledItems items → CleanItems items
  | [], _ => trivial
  | value :: rest, h => ⟨clean_of_settled value h.1, cleanItems_of_settled rest h.2⟩

theorem cleanMembers_of_settled : ∀ members : List (String × Value), SettledMembers members →
    CleanMembers members
  | [], _ => trivial
  | (_, value) :: rest, h =>
      ⟨looksSensitiveValue_of_kept h.1, h.2.1, clean_of_settled value h.2.2.1,
        cleanMembers_of_settled rest h.2.2.2⟩

end

mutual

theorem sanitize_of_settled : ∀ v : Value, Settled v → sanitizeJsonValue v = v
  | .null, _ | .bool _, _ | .number _, _ => rfl
  | .string _, h => congrArg Value.string h
  | .array items, h => congrArg Value.array (sanitizeItems_of_settled items h)
  | .object members, h =>
      congrArg Value.object (sanitizeMembers_of_settled members [] h.1 h.2)

theorem sanitizeItems_of_settled : ∀ items : List Value, SettledItems items →
    sanitizeItems items = items
  | [], _ => rfl
  | value :: rest, h => by
      rw [sanitizeItems, sanitize_of_settled value h.1, sanitizeItems_of_settled rest h.2]

/-- The members are added one by one to those before them. -/
theorem sanitizeMembers_of_settled : ∀ (members : List (String × Value)) (sanitized : Members),
    (Members.keys (sanitized ++ members)).Nodup → SettledMembers members →
    sanitizeMembers members sanitized = sanitized ++ members
  | [], sanitized, _, _ => (List.append_nil sanitized).symm
  | (key, value) :: rest, sanitized, hkeys, h => by
      have hvalue : (if isSensitiveKey key = true then .string REDACTED
          else sanitizeJsonValue value) = value := by
        split
        · next hkey => exact (h.2.1 hkey).symm
        · exact sanitize_of_settled value h.2.2.1
      have hfresh : key ∉ sanitized.keys := by
        rw [Members.keys, List.map_append, List.map_cons, List.nodup_append] at hkeys
        intro hmem
        exact hkeys.2.2 key hmem key List.mem_cons_self rfl
      rw [sanitizeMembers, hvalue, h.1, Members.insert_of_notMem hfresh,
        sanitizeMembers_of_settled rest _ (by simpa using hkeys) h.2.2.2, List.append_assoc]
      rfl

end

theorem settled_member (key : String) {value : Value} (h : Settled value) :
    sanitizeFieldKey (sanitizeFieldKey key) = sanitizeFieldKey key ∧
      (isSensitiveKey (sanitizeFieldKey key) = true →
        (if isSensitiveKey key then Value.string REDACTED else value) = .string REDACTED) ∧
      Settled (if isSensitiveKey key then .string REDACTED else value) := by
  refine ⟨sanitizeFieldKey_idem key, fun hkey => ?_, ?_⟩
  · rw [isSensitiveKey_of_sanitizeFieldKey hkey]
    rfl
  · cases isSensitiveKey key with
    | true => exact sanitizeText_redacted
    | false => exact h

mutual

theorem settled_sanitizeJsonValue : ∀ v : Value, Settled (sanitizeJsonValue v)
  | .null | .bool _ | .number _ => trivial
  | .string s => sanitizeText_idem s
  | .array items => settled_sanitizeItems items
  | .object members => settled_sanitizeMembers members [] List.nodup_nil trivial

theorem settled_sanitizeItems : ∀ items : List Value, SettledItems (sanitizeItems items)
  | [] => trivial
  | value :: rest => ⟨settled_sanitizeJsonValue value, settled_sanitizeItems rest⟩

theorem settled_sanitizeMembers : ∀ (members : List (String × Value)) (sanitized : Members),
    sanitized.keys.Nodup → SettledMembers sanitized →
    Settled (.object (sanitizeMembers members sanitized))
  | [], _, hkeys, h => ⟨hkeys, h⟩
  | (key, value) :: rest, sanitized, hkeys, h => by
      rw [sanitizeMembers]
      apply settled_sanitizeMembers rest _ (Members.nodup_keys_insert hkeys _ _)
      rw [settledMembers_iff] at h ⊢
      intro m hm
      rcases Members.mem_insert hm with rfl | hm
      · dsimp only
        exact settled_member key (settled_sanitizeJsonValue value)
      · exact h m hm

end

/-- Redaction is complete, stable, and hides what it removes. -/
theorem redaction_complete :
    (∀ v, sanitizeJsonValue (sanitizeJsonValue v) = sanitizeJsonValue v) ∧
    (∀ v, Clean (sanitizeJsonValue v)) ∧
    ∀ v w, AgreeButSecrets v w → sanitizeJsonValue v = sanitizeJsonValue w :=
  ⟨fun v => sanitize_of_settled _ (settled_sanitizeJsonValue v),
    fun v => clean_of_settled _ (settled_sanitizeJsonValue v), fun _ _ h => h.sanitize_eq⟩

/-- A password cannot be told from a null in its place. -/
theorem redaction_complete_password :
    sanitizeJsonValue (.object [("password", .string "a")]) =
      sanitizeJsonValue (.object [("password", .null)]) := by
  have hkey : isSensitiveKey "password" = true := by decide
  exact redaction_complete.2.2 _ _ (.object (.secret hkey _ _ .nil))

end Dcp
