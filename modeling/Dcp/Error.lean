import Mathlib.Tactic

/-!
The error enumerations of the protocol. The discriminants are the ones sent on the
wire in a binary error response.
-/

namespace Dcp

inductive DCPError
  | insufficientData | invalidMagic | unknownMessageType | toolNotFound
  | validationFailed | hashMismatch | signatureInvalid | nonceReused
  | timestampExpired | checksumMismatch | backpressure | outOfBounds
  | internalError | resourceExhausted | sessionNotFound | capabilityDenied
  deriving DecidableEq, Repr

namespace DCPError

/-- The `Display` text of an error. -/
def toText : DCPError → String
  | insufficientData => "insufficient data for parsing"
  | invalidMagic => "invalid magic number"
  | unknownMessageType => "unknown message type"
  | toolNotFound => "tool not found"
  | validationFailed => "schema validation failed"
  | hashMismatch => "hash mismatch"
  | signatureInvalid => "signature invalid"
  | nonceReused => "nonce reused"
  | timestampExpired => "timestamp expired"
  | checksumMismatch => "checksum mismatch"
  | backpressure => "backpressure"
  | outOfBounds => "out of bounds"
  | internalError => "internal error"
  | resourceExhausted => "resource exhausted"
  | sessionNotFound => "session not found"
  | capabilityDenied => "capability denied"

def code : DCPError → UInt8
  | insufficientData => 1
  | invalidMagic => 2
  | unknownMessageType => 3
  | toolNotFound => 4
  | validationFailed => 5
  | hashMismatch => 6
  | signatureInvalid => 7
  | nonceReused => 8
  | timestampExpired => 9
  | checksumMismatch => 10
  | backpressure => 11
  | outOfBounds => 12
  | internalError => 13
  | resourceExhausted => 14
  | sessionNotFound => 15
  | capabilityDenied => 16

end DCPError

inductive SecurityError
  | invalidSignature | expiredTimestamp | replayAttack | insufficientCapabilities
  | capacityExceeded | validationFailed | argsHashMismatch
  deriving DecidableEq, Repr

end Dcp
