import Dcp.Compat.JsonRpc
import Dcp.Dispatch.Schema
import Dcp.Library.Bytes

/-!
The errors of the complete adapter and its encoding of JSON arguments into the binary form
that tool handlers read. The encoder allocates a zeroed buffer up to the largest declared
field end, writes each supplied argument at its field's offset and records its type in the
layout word.
-/

namespace Dcp
open Library

inductive CompleteAdapterError
  | parseError (e : JsonRpcParseError)
  | unknownTool (name : String)
  | dcpError (e : DCPError)
  | resourceError (text : String)
  | promptError (text : String)
  | serializationError (text : String)
  | invalidParams (text : String)
  | invalidRequest (text : String)
  | lifecycleNotInitialized
  | lifecycleAlreadyInitialized
  | capabilityDenied
  | capacityExceeded (kind : String) (max : Nat)
  deriving DecidableEq

def validateFieldCapacity (field : FieldDef) (minimum : Nat) : Except CompleteAdapterError Unit :=
  if field.size.toNat ≥ minimum then .ok () else .error (.dcpError .validationFailed)

def writeField (buffer : List UInt8) (field : FieldDef) (bytes : List UInt8) :
    Except CompleteAdapterError (List UInt8) :=
  if bytes.length > field.size.toNat ∨ field.offset.toNat + bytes.length > buffer.length then
    .error (.dcpError .outOfBounds)
  else .ok (overwrite buffer field.offset.toNat bytes)

def typeMismatch : CompleteAdapterError := .invalidParams "argument type mismatch"

/-- The value an accessor finds, or the type error. -/
def expectArgument {α : Type} (found : Option α) : Except CompleteAdapterError α :=
  match found with
  | some a => .ok a
  | none => .error typeMismatch

def requireFits (field : FieldDef) (bytes : List UInt8) :
    Except CompleteAdapterError (List UInt8) :=
  if bytes.length > field.size.toNat then .error (.invalidParams "argument too large")
  else .ok bytes

/-- The serialized text of a list or an object. -/
def serializedArgument (codec : JsonCodec) (field : FieldDef) (value : Value) (kind : Bool) :
    Except CompleteAdapterError (List UInt8) :=
  if ¬ kind then .error typeMismatch
  else do
    let bytes ← (codec.toVec value).mapError .serializationError
    requireFits field bytes

/-- The bytes an argument is stored as. -/
def argumentBytes (codec : JsonCodec) (field : FieldDef) (value : Value) :
    Except CompleteAdapterError (List UInt8) :=
  match field.fieldType with
  | .null => if value.isNull then .ok [] else .error typeMismatch
  | .bool => do
      validateFieldCapacity field 1
      let b ← expectArgument value.asBool
      .ok [if b then 1 else 0]
  | .i32 =>
      match field.enumRange with
      | some (minimum, maximum) => do
          validateFieldCapacity field 1
          let n ← expectArgument value.asU64
          if n < minimum.toNat ∨ n > maximum.toNat then
            .error (.invalidParams "argument out of range")
          else .ok [UInt8.ofNat n]
      | none => do
          validateFieldCapacity field 4
          let n ← expectArgument value.asI64
          if n.val < -2147483648 ∨ n.val > 2147483647 then
            .error (.invalidParams "argument out of range")
          else .ok (leBytes 4 (n.val % 4294967296).toNat)
  | .i64 => do
      validateFieldCapacity field 8
      let n ← expectArgument value.asI64
      .ok (leBytes 8 (n.val % 18446744073709551616).toNat)
  | .f64 => do
      validateFieldCapacity field 8
      let bits ← expectArgument value.asF64
      .ok (leBytes 8 bits.toNat)
  | .string | .bytes => do
      let s ← expectArgument value.asStr
      requireFits field (utf8 s)
  | .array => serializedArgument codec field value value.isArray
  | .object => serializedArgument codec field value value.isObject

/-- Store one argument; a null argument has no bytes and is not written. -/
def encodeJsonArgument (codec : JsonCodec) (buffer : List UInt8) (field : FieldDef)
    (value : Value) : Except CompleteAdapterError (List UInt8) := do
  let bytes ← argumentBytes codec field value
  if field.fieldType = .null then .ok buffer else writeField buffer field bytes

/-- The largest end of a declared field. -/
def maxLen (fields : List FieldDef) : Nat := fields.foldl (fun n field => max n field.endOffset) 0

/-- The loop over declared fields. -/
def encodeFields (codec : JsonCodec) (schema : InputSchema) (arguments : Members) :
    List FieldDef → Nat → List UInt8 → UInt64 → Except CompleteAdapterError (List UInt8 × UInt64)
  | [], _, buffer, layout => .ok (buffer, layout)
  | field :: rest, idx, buffer, layout =>
      if idx ≥ 16 then .error (.dcpError .validationFailed)
      else
        match arguments.get field.name with
        | some value => do
            let buffer ← encodeJsonArgument codec buffer field value
            encodeFields codec schema arguments rest (idx + 1) buffer
              (layout ||| field.fieldType.toU8.toUInt64 <<< UInt64.ofNat (idx * 4))
        | none =>
            if schema.isRequired idx then .error (.invalidParams "missing required argument")
            else encodeFields codec schema arguments rest (idx + 1) buffer layout

/-- The members of the arguments object; absent arguments are an empty one. -/
def argumentMembers (arguments : Option Value) : Except CompleteAdapterError Members :=
  match arguments with
  | some (.object arguments) => .ok arguments
  | some _ => .error (.invalidParams "arguments must be object")
  | none => .ok []

def encodeJsonArguments (codec : JsonCodec) (schema : InputSchema) (arguments : Option Value) :
    Except CompleteAdapterError (List UInt8 × UInt64) := do
  let arguments ← argumentMembers arguments
  if arguments.keys.any fun name => ¬ schema.fields.any fun field => field.name = name then
    .error (.invalidParams "unknown argument")
  else
    encodeFields codec schema arguments schema.fields 0
      (List.replicate (maxLen schema.fields) 0) 0

end Dcp
