import Dcp.Error
import Dcp.Library.Bitset

/-!
Argument layouts and input schemas. A layout word holds sixteen type nibbles; the
validator compares each declared field with its nibble, bounds the data by the fields
that are present, and requires every undeclared nibble to be null.
-/

namespace Dcp
open Library

inductive ArgType
  | null | bool | i32 | i64 | f64 | string | bytes | array | object
  deriving DecidableEq, Repr

namespace ArgType

def toU8 : ArgType → UInt8
  | null => 0
  | bool => 1
  | i32 => 2
  | i64 => 3
  | f64 => 4
  | string => 5
  | bytes => 6
  | array => 7
  | object => 8

def fromU8 (value : UInt8) : Option ArgType :=
  match value.toNat with
  | 0 => some null
  | 1 => some bool
  | 2 => some i32
  | 3 => some i64
  | 4 => some f64
  | 5 => some string
  | 6 => some bytes
  | 7 => some array
  | 8 => some object
  | _ => none

@[simp] theorem fromU8_toU8 (t : ArgType) : fromU8 t.toU8 = some t := by
  cases t <;> rfl

theorem toU8_lt (t : ArgType) : t.toU8.toNat < 16 := by
  cases t <;> decide

end ArgType

/-- Arguments as the handler sees them: raw bytes and the layout word. -/
structure SharedArgs where
  data : List UInt8
  layout : UInt64
  deriving DecidableEq

structure FieldDef where
  name : String
  fieldType : ArgType
  offset : UInt16
  size : UInt16
  enumRange : Option (UInt8 × UInt8)
  deriving DecidableEq

structure InputSchema where
  required : UInt64
  fields : List FieldDef
  deriving DecidableEq

structure ToolSchema where
  name : String
  id : UInt16
  description : String
  input : InputSchema
  deriving DecidableEq

namespace FieldDef

/-- The end of the field's range. Two 16-bit numbers cannot overflow a machine word,
so the checked addition of the source always succeeds. -/
def endOffset (field : FieldDef) : Nat := field.offset.toNat + field.size.toNat

end FieldDef

def InputSchema.isRequired (schema : InputSchema) (fieldIndex : Nat) : Bool :=
  if fieldIndex ≥ 64 then false else schema.required &&& bit fieldIndex != 0

/-- The nibble of argument `index` in a layout word. -/
def layoutNibble (layout : UInt64) (index : Nat) : UInt64 :=
  (layout >>> UInt64.ofNat (index * 4)) &&& 15

def argTypeFromLayout (layout : UInt64) (index : Nat) : Except DCPError ArgType :=
  match ArgType.fromU8 (layoutNibble layout index).toUInt8 with
  | some t => .ok t
  | none => .error .validationFailed

namespace SchemaValidator

def validateRequired (schema : InputSchema) (presentMask : UInt64) : Except DCPError Unit :=
  if schema.required &&& ~~~ presentMask ≠ 0 then .error .validationFailed else .ok ()

def validateEnum (field : FieldDef) (value : UInt8) : Except DCPError Unit :=
  match field.enumRange with
  | some (min, max) => if value < min ∨ value > max then .error .validationFailed else .ok ()
  | none => .ok ()

/-- The range check on the first byte of a present field. -/
def validateEnumByte (args : SharedArgs) (field : FieldDef) : Except DCPError Unit :=
  if field.enumRange.isSome then
    match args.data[field.offset.toNat]? with
    | none => .error .outOfBounds
    | some value => validateEnum field value
  else .ok ()

/-- One turn of the loop over declared fields: the new presence mask and the new
bound on the data length. -/
def validateField (args : SharedArgs) (idx : Nat) (field : FieldDef)
    (presentMask : UInt64) (declaredDataLen : Nat) : Except DCPError (UInt64 × Nat) :=
  if idx ≥ 16 then .error .validationFailed
  else do
    let actualType ← argTypeFromLayout args.layout idx
    if actualType = .null then .ok (presentMask, declaredDataLen)
    else if actualType ≠ field.fieldType then .error .validationFailed
    else if field.endOffset > args.data.length then .error .outOfBounds
    else do
      validateEnumByte args field
      .ok (presentMask ||| bit idx, max declaredDataLen field.endOffset)

def validateFields (args : SharedArgs) :
    List FieldDef → Nat → UInt64 → Nat → Except DCPError (UInt64 × Nat)
  | [], _, presentMask, declaredDataLen => .ok (presentMask, declaredDataLen)
  | field :: rest, idx, presentMask, declaredDataLen => do
      let (mask, len) ← validateField args idx field presentMask declaredDataLen
      validateFields args rest (idx + 1) mask len

/-- The nibbles past the declared fields must all be null. -/
def validateUndeclared (args : SharedArgs) : List Nat → Except DCPError Unit
  | [] => .ok ()
  | idx :: rest => do
      let t ← argTypeFromLayout args.layout idx
      if t ≠ .null then .error .validationFailed else validateUndeclared args rest

/-- Validate shared binary arguments against a tool input schema. -/
def validateSharedArgs (schema : InputSchema) (args : SharedArgs) : Except DCPError Unit := do
  let (presentMask, declaredDataLen) ← validateFields args schema.fields 0 0 0
  validateUndeclared args (List.range' schema.fields.length (16 - schema.fields.length))
  if args.data.length > declaredDataLen then .error .validationFailed
  else validateRequired schema presentMask

end SchemaValidator
end Dcp
