import Dcp.Library.Json.Value
import Mathlib.Data.Rat.Defs
import Mathlib.Tactic

/-!
JSON Schema, as far as it is about types, the lengths of texts, the bounds of numbers and the
members of objects. A keyword that does not apply to a value says nothing about it; a number is an
integer when its value is one, however it is written; a text is as long as it has characters.
-/

namespace Library

/-- The value of the finite float with this image. -/
def floatValue (bits : UInt64) : ℚ :=
  let exponent : Nat := bits.toNat / 2 ^ 52 % 2 ^ 11
  let fraction : Nat := bits.toNat % 2 ^ 52
  let magnitude : ℚ :=
    if exponent = 0 then fraction * 2 ^ (-1074 : ℤ)
    else (2 ^ 52 + fraction) * 2 ^ ((exponent : ℤ) - 1075)
  if bits.toNat < 2 ^ 63 then magnitude else -magnitude

def Number.value : Number → ℚ
  | .int n => n.val
  | .float bits => floatValue bits

namespace Schema

def HasType (type : String) : Value → Prop
  | .null => type = "null"
  | .bool _ => type = "boolean"
  | .number n => type = "number" ∨ type = "integer" ∧ ∃ k : ℤ, n.value = k
  | .string _ => type = "string"
  | .array _ => type = "array"
  | .object _ => type = "object"

/-- The value meets every keyword of the schema. -/
inductive Conforms : Value → Value → Prop
  | intro {schema v : Value}
      (type : ∀ name, schema.get "type" = some (.string name) → HasType name v)
      (maxLength : ∀ limit text, schema.get "maxLength" = some (.number limit) →
        v = .string text → (text.length : ℚ) ≤ limit.value)
      (minimum : ∀ bound n, schema.get "minimum" = some (.number bound) → v = .number n →
        bound.value ≤ n.value)
      (maximum : ∀ bound n, schema.get "maximum" = some (.number bound) → v = .number n →
        n.value ≤ bound.value)
      (required : ∀ names (members : Members), schema.get "required" = some (.array names) →
        v = .object members → ∀ name, .string name ∈ names → name ∈ members.keys)
      (properties : ∀ (properties members : Members),
        schema.get "properties" = some (.object properties) → v = .object members →
          ∀ name subschema w, properties.get name = some subschema →
            members.get name = some w → Conforms subschema w)
      (additionalProperties : ∀ members : Members,
        schema.get "additionalProperties" = some (.bool false) → v = .object members →
          ∀ name ∈ members.keys, ∃ properties : Members,
            schema.get "properties" = some (.object properties) ∧ name ∈ properties.keys) :
      Conforms schema v

end Schema
end Library
