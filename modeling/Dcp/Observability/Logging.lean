import Dcp.Library.Json.ObjectText
import Dcp.Library.Table
import Dcp.Security.Redaction

/-!
Structured log entries and the lines they are written as. A line is put together as text: the fixed
members first, then those that may be absent, then the fields in the order of their map. What a
float is written as is a parameter.
-/

namespace Dcp.Observability
open Library

inductive LogLevel
  | trace
  | debug
  | info
  | warn
  | error
  deriving DecidableEq

def LogLevel.toText : LogLevel → String
  | .trace => "TRACE"
  | .debug => "DEBUG"
  | .info => "INFO"
  | .warn => "WARN"
  | .error => "ERROR"

inductive LogValue
  | string (s : String)
  | int (i : JsonI64)
  | float (bits : UInt64)
  | bool (b : Bool)
  | null
  deriving DecidableEq

structure LogEntry where
  level : LogLevel
  message : String
  timestamp : UInt64
  requestId : Option String
  traceId : Option String
  fields : Table String LogValue
  file : Option String
  line : Option UInt32

/-- The order in which the map of fields is iterated. -/
abbrev FieldOrder := Table.IterationOrder (String × LogValue)

/-- The control characters of Unicode. -/
def isControl (c : Char) : Bool := c.toNat < 32 || (127 ≤ c.toNat && c.toNat < 160)

def escapeJsonChar (c : Char) : List Char :=
  if c = '"' then ['\\', '"']
  else if c = '\\' then ['\\', '\\']
  else if c = '\n' then ['\\', 'n']
  else if c = '\r' then ['\\', 'r']
  else if c = '\t' then ['\\', 't']
  else if isControl c then ['\\', 'u'] ++ List.leftpad 4 '0' (Nat.toDigits 16 c.toNat)
  else [c]

/-- Escape a string for JSON. -/
def escapeJsonString (s : String) : List Char := '"' :: (s.toList.flatMap escapeJsonChar ++ ['"'])

def sanitizeLogValue (key : String) : LogValue → LogValue
  | .string value => .string (sanitizeFieldValue key value)
  | other => if isSensitiveKey key then .string REDACTED else other

def LogValue.toJson (showFloat : UInt64 → String) : LogValue → List Char
  | .string s => escapeJsonString s
  | .int i => Json.printInt i.val
  | .float bits => (showFloat bits).toList
  | .bool true => ['t', 'r', 'u', 'e']
  | .bool false => ['f', 'a', 'l', 's', 'e']
  | .null => ['n', 'u', 'l', 'l']

namespace LogEntry

def new (level : LogLevel) (message : String) (timestamp : UInt64) : LogEntry :=
  ⟨level, sanitizeText message, timestamp, none, none, ∅, none, none⟩

def withField (entry : LogEntry) (key : String) (value : LogValue) : LogEntry :=
  { entry with
    fields := entry.fields.insert (sanitizeFieldKey key) (sanitizeLogValue key value) }

/-- Fields whose keys become the same replace each other. -/
def sanitizeFields (fields : List (String × LogValue)) : Table String LogValue :=
  fields.foldl (fun (sanitized : Table String LogValue) field =>
    sanitized.insert (sanitizeFieldKey field.1) (sanitizeLogValue field.1 field.2)) ∅

def sanitizedCopy (entry : LogEntry) : LogEntry :=
  { level := entry.level
    message := sanitizeText entry.message
    timestamp := entry.timestamp
    requestId := entry.requestId.map sanitizeText
    traceId := entry.traceId.map sanitizeText
    fields := sanitizeFields entry.fields.toPairs
    file := entry.file.map sanitizeText
    line := entry.line }

/-- A member with a fixed name. -/
def member (name : String) (value : List Char) : List Char :=
  ("\"" ++ name ++ "\":").toList ++ value

/-- The members of a line, of a copy that is sanitized. -/
def memberTexts (showFloat : UInt64 → String) (order : FieldOrder) (entry : LogEntry)
    (serviceName : String) : List (List Char) :=
  [member "timestamp" (Json.printInt entry.timestamp.toNat),
    member "level" ('"' :: (entry.level.toText.toList ++ ['"'])),
    member "message" (escapeJsonString entry.message),
    member "service" (escapeJsonString (sanitizeText serviceName))] ++
  (entry.requestId.toList.map fun id => member "request_id" (escapeJsonString id)) ++
  (entry.traceId.toList.map fun id => member "trace_id" (escapeJsonString id)) ++
  (entry.file.toList.map fun file => member "file" (escapeJsonString file)) ++
  (entry.line.toList.map fun line => member "line" (Json.printInt line.toNat)) ++
  (order.arrange entry.fields.toPairs).map fun field =>
    escapeJsonString field.1 ++ ':' :: field.2.toJson showFloat

/-- Format as JSON. A comma follows each member; the last one is removed again. -/
def toJson (showFloat : UInt64 → String) (order : FieldOrder) (entry : LogEntry)
    (serviceName : String) : String :=
  let json := '\x7b' ::
    (memberTexts showFloat order entry.sanitizedCopy serviceName).flatMap (· ++ [','])
  String.ofList ((if json.getLast? = some ',' then json.dropLast else json) ++ ['\x7d'])

end LogEntry

end Dcp.Observability
