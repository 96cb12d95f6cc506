import Dcp.Library.Json.Distinct
import Dcp.Library.Text

/-!
Redaction of text that looks like a secret. The predicates work on the lower-cased text
and on its repeated percent-decoding.
-/

namespace Dcp
open Library

def REDACTED : String := "[REDACTED]"

def maxPercentDecodePasses : Nat := 4

def sensitiveKeys : List String :=
  ["authorization", "cookie", "set-cookie", "password", "passwd", "secret", "api_key",
    "x-api-key", "access_token", "refresh_token", "private_key", "credential", "session",
    "token"]

def hexValue (byte : UInt8) : Option UInt8 :=
  if '0'.toUInt8 ≤ byte ∧ byte ≤ '9'.toUInt8 then some (byte - '0'.toUInt8)
  else if 'a'.toUInt8 ≤ byte ∧ byte ≤ 'f'.toUInt8 then some (byte - 'a'.toUInt8 + 10)
  else if 'A'.toUInt8 ≤ byte ∧ byte ≤ 'F'.toUInt8 then some (byte - 'A'.toUInt8 + 10)
  else none

/-- A byte read as the character with that code point. -/
def byteChar (byte : UInt8) : Char := Char.ofNat byte.toNat

/-- Decode `%XY` escapes; a byte of the encoded text that is not part of an escape becomes
the character with its code, so the result of a multi-byte character is several. -/
def percentDecodeBytes : List UInt8 → List Char
  | [] => []
  | [a] => [byteChar a]
  | [a, b] => [byteChar a, byteChar b]
  | a :: b :: c :: rest =>
      if a = '%'.toUInt8 then
        match hexValue b, hexValue c with
        | some high, some low => byteChar (high <<< 4 ||| low) :: percentDecodeBytes rest
        | _, _ => byteChar a :: percentDecodeBytes (b :: c :: rest)
      else byteChar a :: percentDecodeBytes (b :: c :: rest)

def percentDecodeAscii (value : String) : String :=
  String.ofList (percentDecodeBytes (utf8 value))

/-- At most `passes` rounds of decoding, stopping at a fixed point. -/
def percentDecodePasses : Nat → String → String
  | 0, current => current
  | passes + 1, current =>
      let decoded := percentDecodeAscii current
      if decoded = current then current else percentDecodePasses passes decoded

def percentDecodeAsciiRepeated (value : String) : String :=
  percentDecodePasses maxPercentDecodePasses value

/-- The rounds after a fixed point would change nothing. -/
theorem percentDecodePasses_eq_iterate (passes : Nat) (current : String) :
    percentDecodePasses passes current = percentDecodeAscii^[passes] current := by
  induction passes generalizing current with
  | zero => rfl
  | succ passes ih =>
      rw [percentDecodePasses]
      split
      · next hfixed => exact (Function.iterate_fixed hfixed _).symm
      · rw [ih, Function.iterate_succ_apply]

theorem byteChar_toNat (b : UInt8) : (byteChar b).toNat = b.toNat := by
  have hvalid : b.toNat.isValidChar := .inl (b.toNat_lt.trans (by decide))
  rw [byteChar, Char.ofNat, dif_pos hvalid]
  rfl

theorem byteChar_injective {b b' : UInt8} (h : byteChar b = byteChar b') : b = b' := by
  have htoNat := congrArg Char.toNat h
  rw [byteChar_toNat, byteChar_toNat] at htoNat
  exact UInt8.toNat_inj.mp htoNat

def replaceChars (old : List Char) (new : List Char) (s : String) : String :=
  String.ofList (s.toList.flatMap fun c => if c ∈ old then new else [c])

/-- The three spellings of a key that an assignment is searched with. -/
def keyVariants (key : String) : List String :=
  [key, replaceChars ['-'] ['_'] key, replaceChars ['-', '_'] [] key]

def containsSensitiveAssignment (lower : String) : Bool :=
  sensitiveKeys.any fun key => (keyVariants key).any fun variant =>
    containsText lower (variant ++ "=") || containsText lower (variant ++ ":") ||
      containsText lower ("?" ++ variant ++ "=") || containsText lower ("&" ++ variant ++ "=")

def textLooksSensitive (lower : String) : Bool :=
  containsText lower "bearer " || containsText lower "basic " ||
    containsText lower "sk-live" || containsText lower "sk-" ||
    containsText lower "password" || containsText lower "private key" ||
    containsText lower "-----begin" || containsText lower "secret" ||
    containsText lower "access_token" || containsText lower "refresh_token" ||
    containsSensitiveAssignment lower

/-- True when an unstructured value looks like a secret. -/
def looksSensitiveValue (value : String) : Bool :=
  let lower := toAsciiLowercase value
  let decodedLower := toAsciiLowercase (percentDecodeAsciiRepeated lower)
  textLooksSensitive lower || textLooksSensitive decodedLower

/-- The normalised key read so far, whether it ends in a hyphen, and whether its last
character was a lowercase letter or a digit. -/
structure NormalizedKey where
  text : List Char
  endsWithHyphen : Bool
  previousWasLowerOrDigit : Bool

def NormalizedKey.push (acc : NormalizedKey) (ch : Char) : NormalizedKey :=
  if ch = '_' ∨ ch = '-' then
    ⟨if acc.endsWithHyphen then acc.text else acc.text ++ ['-'], true, false⟩
  else
    let text := if ch.isUpper && acc.previousWasLowerOrDigit then acc.text ++ ['-'] else acc.text
    ⟨text ++ [ch.toLower], false, ch.isLower || ch.isDigit⟩

def normalizeKey (key : String) : String :=
  String.ofList (key.toList.foldl NormalizedKey.push ⟨[], false, false⟩).text

/-- True when a structured field key is security-sensitive. -/
def isSensitiveKey (key : String) : Bool :=
  let normalized := normalizeKey (percentDecodeAsciiRepeated key)
  sensitiveKeys.any fun sensitive =>
    normalized == sensitive || containsText normalized sensitive ||
      containsText normalized (replaceChars ['_'] ['-'] sensitive)

/-- Replace the whole text when it resembles a secret. -/
def sanitizeText (value : String) : String :=
  if looksSensitiveValue value then REDACTED else value

def sanitizeFieldValue (key value : String) : String :=
  if isSensitiveKey key || looksSensitiveValue value then REDACTED else value

def sanitizeFieldKey (key : String) : String :=
  if looksSensitiveValue key || (containsText key "%" && isSensitiveKey key) then REDACTED
  else key

mutual

/-- Recursively sanitize JSON values while preserving non-sensitive structure. -/
def sanitizeJsonValue : Value → Value
  | .object members => .object (sanitizeMembers members [])
  | .array values => .array (sanitizeItems values)
  | .string value => .string (sanitizeText value)
  | other => other

def sanitizeItems : List Value → List Value
  | [] => []
  | value :: rest => sanitizeJsonValue value :: sanitizeItems rest

def sanitizeMembers : List (String × Value) → Members → Members
  | [], sanitized => sanitized
  | (key, value) :: rest, sanitized =>
      let value := if isSensitiveKey key then .string REDACTED else sanitizeJsonValue value
      sanitizeMembers rest (sanitized.insert (sanitizeFieldKey key) value)

end

mutual

/-- Sanitizing keeps a value plain: colliding redacted keys replace each other. -/
theorem plain_sanitizeJsonValue : ∀ v : Value, v.plain = true →
    (sanitizeJsonValue v).plain = true
  | .null, _ => rfl
  | .bool _, _ => rfl
  | .number (.int _), _ => rfl
  | .string _, _ => rfl
  | .array values, h => plainItems_sanitizeItems values h
  | .object members, h => by
      rw [Value.plain, Bool.and_eq_true] at h
      exact plain_sanitizeMembers members [] h.2 rfl

theorem plainItems_sanitizeItems : ∀ values : List Value, Value.plainItems values = true →
    Value.plainItems (sanitizeItems values) = true
  | [], _ => rfl
  | value :: rest, h => by
      rw [Value.plainItems, Bool.and_eq_true] at h
      rw [sanitizeItems, Value.plainItems, plain_sanitizeJsonValue value h.1,
        plainItems_sanitizeItems rest h.2]
      rfl

theorem plain_sanitizeMembers : ∀ (members : List (String × Value)) (sanitized : Members),
    Value.plainMembers members = true → (Value.object sanitized).plain = true →
    (Value.object (sanitizeMembers members sanitized)).plain = true
  | [], _, _, h => h
  | (key, value) :: rest, sanitized, hmembers, h => by
      rw [Value.plainMembers, Bool.and_eq_true] at hmembers
      apply plain_sanitizeMembers rest _ hmembers.2
      apply Value.plain_object_insert h
      split
      · rfl
      · exact plain_sanitizeJsonValue value hmembers.1

end

mutual

/-- In a sanitized value no object repeats a key. -/
theorem distinct_sanitizeJsonValue : ∀ v : Value, (sanitizeJsonValue v).distinct = true
  | .null | .bool _ | .number _ | .string _ => rfl
  | .array values => distinctItems_sanitizeItems values
  | .object members => distinct_sanitizeMembers members [] rfl

theorem distinctItems_sanitizeItems : ∀ values : List Value,
    Value.distinctItems (sanitizeItems values) = true
  | [] => rfl
  | value :: rest => by
      rw [sanitizeItems, Value.distinctItems, distinct_sanitizeJsonValue value,
        distinctItems_sanitizeItems rest]
      rfl

theorem distinct_sanitizeMembers : ∀ (members : List (String × Value)) (sanitized : Members),
    (Value.object sanitized).distinct = true →
    (Value.object (sanitizeMembers members sanitized)).distinct = true
  | [], _, h => h
  | (key, value) :: rest, sanitized, h => by
      apply distinct_sanitizeMembers rest
      apply Value.distinct_object_insert h
      split
      · rfl
      · exact distinct_sanitizeJsonValue value

end

end Dcp
