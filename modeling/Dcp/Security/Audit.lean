import Dcp.Library.Table
import Dcp.Security.Redaction

/-!
Structured audit receipts and the bounded log that keeps the newest of them. The
timestamp of a receipt is not modelled: no modelled function reads it.
-/

namespace Dcp
open Library

def maxSecurityAuditEvents : Nat := 1024
def maxSecurityAuditTextLen : Nat := 256

/-- The longest prefix of whole characters that fits in `budget` bytes. -/
def takeUtf8 : Nat → List Char → List Char
  | _, [] => []
  | budget, c :: rest =>
      if c.utf8Size > budget then [] else c :: takeUtf8 (budget - c.utf8Size) rest

def truncateAuditText (value : String) : String :=
  if value.utf8ByteSize ≤ maxSecurityAuditTextLen then value
  else String.ofList (takeUtf8 maxSecurityAuditTextLen value.toList)

def sanitizeAuditText (value : String) : String := truncateAuditText (sanitizeText value)

def sanitizeAuditFieldKey (key : String) : String := truncateAuditText (sanitizeFieldKey key)

def sanitizeAuditFieldValue (key value : String) : String :=
  truncateAuditText (sanitizeFieldValue key value)

inductive SecurityAuditAction
  | requestRejected | capabilityDenied | validationRejected | replayRejected
  | signatureRejected | transportRejected | shutdownRejected
  deriving DecidableEq, Repr

structure SecurityAuditEvent where
  action : SecurityAuditAction
  reason : String
  method : Option String
  requestId : Option String
  fields : Table String String
  deriving DecidableEq

namespace SecurityAuditEvent

def new (action : SecurityAuditAction) (reason : String) : SecurityAuditEvent :=
  ⟨action, sanitizeAuditText reason, none, none, ∅⟩

def withMethod (event : SecurityAuditEvent) (method : String) : SecurityAuditEvent :=
  { event with method := some (sanitizeAuditText method) }

def withRequestId (event : SecurityAuditEvent) (requestId : String) : SecurityAuditEvent :=
  { event with requestId := some (sanitizeAuditText requestId) }

def withField (event : SecurityAuditEvent) (key value : String) : SecurityAuditEvent :=
  { event with
    fields := AList.insert (sanitizeAuditFieldKey key) (sanitizeAuditFieldValue key value)
      event.fields }

def sanitizedCopy (event : SecurityAuditEvent) : SecurityAuditEvent where
  action := event.action
  reason := sanitizeAuditText event.reason
  method := event.method.map sanitizeAuditText
  requestId := event.requestId.map sanitizeAuditText
  fields := event.fields.entries.foldl
    (fun fields e =>
      AList.insert (sanitizeAuditFieldKey e.1) (sanitizeAuditFieldValue e.1 e.2) fields) ∅

end SecurityAuditEvent

/-- The state of an audit log together with its retention bound. -/
structure SecurityAuditLog where
  events : List SecurityAuditEvent
  droppedCount : UInt64
  maxEvents : Nat

namespace SecurityAuditLog

def withCapacity (maxEvents : Nat) : SecurityAuditLog := ⟨[], 0, maxEvents⟩

def new : SecurityAuditLog := withCapacity maxSecurityAuditEvents

/-- One more dropped receipt; the counter saturates. -/
def bumpDropped (dropped : UInt64) : UInt64 := if dropped + 1 = 0 then dropped else dropped + 1

/-- Append an event, dropping the oldest one at capacity. -/
def record (log : SecurityAuditLog) (event : SecurityAuditEvent) : SecurityAuditLog :=
  let event := event.sanitizedCopy
  if log.maxEvents = 0 then { log with droppedCount := bumpDropped log.droppedCount }
  else if log.events.length ≥ log.maxEvents then
    { log with
      events := log.events.tail ++ [event]
      droppedCount := bumpDropped log.droppedCount }
  else { log with events := log.events ++ [event] }

def clear (log : SecurityAuditLog) : SecurityAuditLog :=
  { log with events := [], droppedCount := 0 }

end SecurityAuditLog
end Dcp
