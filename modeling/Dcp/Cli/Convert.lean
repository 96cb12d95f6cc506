import Dcp.Library.Bytes
import Dcp.Library.Json.Value
import Dcp.Library.Outcome
import Dcp.Library.Table
import Dcp.Library.Utf8

/-!
Conversion between the tool schemas of the two protocols, and the file format of a binary schema.
The hash function lives in a third-party crate and is a parameter.
-/

namespace Dcp
open Library

structure McpProperty where
  propType : String
  description : String
  enumValues : List String
  default : Option Value

structure McpInputSchema where
  schemaType : String
  properties : Table String McpProperty
  required : List String

structure McpSchema where
  name : String
  description : String
  inputSchema : McpInputSchema

inductive DcpFieldType
  | null
  | bool
  | i32
  | i64
  | f64
  | string
  | bytes
  | array
  | object
  deriving DecidableEq

namespace DcpFieldType

def toU8 : DcpFieldType → UInt8
  | null => 0
  | bool => 1
  | i32 => 2
  | i64 => 3
  | f64 => 4
  | string => 5
  | bytes => 6
  | array => 7
  | object => 8

def fromU8 : UInt8 → Option DcpFieldType
  | 0 => some null
  | 1 => some bool
  | 2 => some i32
  | 3 => some i64
  | 4 => some f64
  | 5 => some string
  | 6 => some bytes
  | 7 => some array
  | 8 => some object
  | _ => none

/-- The size of a value, or of the reference to it. -/
def defaultSize : DcpFieldType → UInt16
  | null => 0
  | bool => 1
  | i32 => 4
  | i64 | f64 | string | bytes | array | object => 8

def fromMcpType (mcpType : String) : DcpFieldType :=
  if mcpType = "boolean" then bool
  else if mcpType = "integer" then i64
  else if mcpType = "number" then f64
  else if mcpType = "string" then string
  else if mcpType = "array" then array
  else if mcpType = "object" then object
  else if mcpType = "null" then null
  else string

def toMcpType : DcpFieldType → String
  | null => "null"
  | bool => "boolean"
  | i32 | i64 => "integer"
  | f64 => "number"
  | string => "string"
  | bytes => "string"
  | array => "array"
  | object => "object"

def read (typeByte : UInt8) : Outcome String DcpFieldType :=
  match fromU8 typeByte with
  | some fieldType => .ok fieldType
  | none => .error ("Invalid field type: " ++ toString typeByte.toNat)

@[simp] theorem fromU8_toU8 (fieldType : DcpFieldType) :
    fromU8 fieldType.toU8 = some fieldType := by
  cases fieldType <;> rfl

end DcpFieldType

structure DcpField where
  name : String
  fieldType : DcpFieldType
  offset : UInt16
  size : UInt16
  deriving DecidableEq

structure DcpSchema where
  name : String
  toolId : UInt16
  description : String
  fields : List DcpField
  requiredMask : UInt64
  deriving DecidableEq

/-- A field as `to_bytes` writes it: the length of the name is cut to one byte. -/
def DcpField.toBytes (field : DcpField) : List UInt8 :=
  [.ofNat (utf8 field.name).length] ++ utf8 field.name ++ [field.fieldType.toU8] ++
    leBytes 2 field.offset.toNat ++ leBytes 2 field.size.toNat

/-- One pass of the loop of `from_bytes` over the fields, with the position after the field. -/
def DcpField.read (bytes : List UInt8) (offset : Nat) : Outcome String (DcpField × Nat) := do
  .ensure (offset < bytes.length) "Insufficient data for field"
  let nameLen ← byteAt bytes offset
  let offset := offset + 1
  .ensure (offset + nameLen.toNat + 5 ≤ bytes.length) "Insufficient data for field data"
  let nameBytes ← bytesAt bytes offset (offset + nameLen.toNat)
  let name ← .ofExcept (fun e => "Invalid field name encoding: " ++ e.toText) (fromUtf8 nameBytes)
  let offset := offset + nameLen.toNat
  let typeByte ← byteAt bytes offset
  let fieldType ← DcpFieldType.read typeByte
  let offsetBytes ← bytesAt bytes (offset + 1) (offset + 3)
  let sizeBytes ← bytesAt bytes (offset + 3) (offset + 5)
  pure (⟨name, fieldType, .ofNat (ofLeBytes offsetBytes), .ofNat (ofLeBytes sizeBytes)⟩,
    offset + 5)

namespace DcpSchema

/-- The fields from a position on. -/
def readFields (bytes : List UInt8) : Nat → Nat → Outcome String (List DcpField)
  | 0, _ => pure []
  | count + 1, offset => do
      let (field, offset) ← DcpField.read bytes offset
      let fields ← readFields bytes count offset
      pure (field :: fields)

/-- The header: the lengths are cut to the widths of their places. -/
def header (schema : DcpSchema) : List UInt8 :=
  [0xDC, 0x53] ++ [1] ++ leBytes 2 schema.toolId.toNat ++ [.ofNat (utf8 schema.name).length] ++
    leBytes 2 (utf8 schema.description).length ++ [.ofNat schema.fields.length] ++
    leBytes 8 schema.requiredMask.toNat

def toBytes (schema : DcpSchema) : List UInt8 :=
  schema.header ++ utf8 schema.name ++ utf8 schema.description ++
    schema.fields.flatMap DcpField.toBytes

def fromBytes (bytes : List UInt8) : Outcome String DcpSchema := do
  .ensure (17 ≤ bytes.length) "Insufficient data for schema header"
  let magic ← bytesAt bytes 0 2
  .ensure (magic = [0xDC, 0x53]) "Invalid schema magic number"
  let version ← byteAt bytes 2
  .ensure (version = 1) ("Unsupported schema version: " ++ toString version.toNat)
  let toolId ← bytesAt bytes 3 5
  let nameLen ← byteAt bytes 5
  let descLenBytes ← bytesAt bytes 6 8
  let descLen := ofLeBytes descLenBytes
  let fieldCount ← byteAt bytes 8
  let requiredMask ← bytesAt bytes 9 17
  let offset := 17
  .ensure (offset + nameLen.toNat ≤ bytes.length) "Insufficient data for name"
  let nameBytes ← bytesAt bytes offset (offset + nameLen.toNat)
  let name ← .ofExcept (fun e => "Invalid name encoding: " ++ e.toText) (fromUtf8 nameBytes)
  let offset := offset + nameLen.toNat
  .ensure (offset + descLen ≤ bytes.length) "Insufficient data for description"
  let descBytes ← bytesAt bytes offset (offset + descLen)
  let description ← .ofExcept (fun e => "Invalid description encoding: " ++ e.toText)
    (fromUtf8 descBytes)
  let offset := offset + descLen
  let fields ← readFields bytes fieldCount.toNat offset
  pure ⟨name, .ofNat (ofLeBytes toolId), description, fields, .ofNat (ofLeBytes requiredMask)⟩

end DcpSchema

/-- The fields for the sorted names from an index on, and the mask of those that are required. -/
def convertFields (schema : McpInputSchema) (idx : Nat) (currentOffset : UInt16)
    (requiredMask : UInt64) : List String → Except String (List DcpField × UInt64)
  | [] => .ok ([], requiredMask)
  | name :: rest =>
      if idx ≥ 64 then .error "Too many fields (max 64)"
      else
        -- the names are keys of the table
        let propType := ((schema.properties.lookup name).map McpProperty.propType).getD ""
        let fieldType := DcpFieldType.fromMcpType propType
        let size := fieldType.defaultSize
        let requiredMask :=
          if name ∈ schema.required then requiredMask ||| (1 <<< UInt64.ofNat idx)
          else requiredMask
        do
          let (fields, requiredMask) ←
            convertFields schema (idx + 1) (currentOffset + size) requiredMask rest
          .ok (⟨name, fieldType, currentOffset, size⟩ :: fields, requiredMask)

def convertMcpToDcp (blake3 : List UInt8 → Vector UInt8 32) (mcp : McpSchema) :
    Except String DcpSchema := do
  let hash := blake3 (utf8 mcp.name)
  let toolId := UInt16.ofNat (ofLeBytes [hash[0], hash[1]])
  let propNames := mcp.inputSchema.properties.keys.mergeSort fun a b => decide (a ≤ b)
  let (fields, requiredMask) ← convertFields mcp.inputSchema 0 0 0 propNames
  pure ⟨mcp.name, toolId, mcp.description, fields, requiredMask⟩

/-- The names whose bit of the mask is set, from an index on; a bit past the mask is a panic. -/
def requiredNames (requiredMask : UInt64) (idx : Nat) :
    List DcpField → Outcome String (List String)
  | [] => .ok []
  | field :: rest =>
      if idx ≥ 64 then .panic
      else do
        let names ← requiredNames requiredMask (idx + 1) rest
        .ok (if requiredMask &&& (1 <<< UInt64.ofNat idx) ≠ 0 then field.name :: names else names)

def convertDcpToMcp (dcp : DcpSchema) : Outcome String McpSchema := do
  let properties := dcp.fields.foldl (fun properties field =>
    AList.insert field.name ⟨field.fieldType.toMcpType, "", [], none⟩ properties) ∅
  let required ← requiredNames dcp.requiredMask 0 dcp.fields
  pure ⟨dcp.name, dcp.description, ⟨"object", properties, required⟩⟩

end Dcp
