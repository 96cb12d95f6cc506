import Dcp.Library.Layout
import Dcp.Security.Signing

/-!
The binary records of the protocol and the envelope of a message, on a little-endian host. A record
is written to a zeroed buffer field by field; its padding is reserved and has to be zero.
-/

namespace Dcp
open Library

/-- What every record checks before it is read: its size, and the reserved padding. -/
def checkRecord (size reservedStart reservedStop : Nat) (bytes : List UInt8) :
    Except DCPError Unit :=
  if bytes.length < size then .error .insufficientData
  else if bytes.length ≠ size then .error .validationFailed
  else if (slice bytes reservedStart reservedStop).any (· ≠ 0) then .error .validationFailed
  else .ok ()

structure ToolInvocation where
  toolId : UInt32
  argLayout : UInt64
  argsOffset : UInt32
  argsLen : UInt32
  deriving DecidableEq

namespace ToolInvocation

def size : Nat := 24

/-- The fields at their offsets. -/
def fields (inv : ToolInvocation) : Writes :=
  [(0, leBytes 4 inv.toolId.toNat), (8, leBytes 8 inv.argLayout.toNat),
    (16, leBytes 4 inv.argsOffset.toNat), (20, leBytes 4 inv.argsLen.toNat)]

def asBytes (inv : ToolInvocation) : List UInt8 := layOut size inv.fields

def fromBytes (bytes : List UInt8) : Except DCPError ToolInvocation := do
  checkRecord size 4 8 bytes
  pure ⟨u32At bytes 0, u64At bytes 8, u32At bytes 16, u32At bytes 20⟩

end ToolInvocation

structure SignedToolDef where
  toolId : UInt32
  schemaHash : Digest
  capabilities : UInt64
  signature : Signature
  publicKey : PublicKey
  deriving DecidableEq

namespace SignedToolDef

def size : Nat := 144

def signedBytesSize : Nat := 44

/-- The fields at their offsets. -/
def fields (tool : SignedToolDef) : Writes :=
  [(0, leBytes 4 tool.toolId.toNat), (4, tool.schemaHash.toList),
    (40, leBytes 8 tool.capabilities.toNat), (48, tool.signature.toList),
    (112, tool.publicKey.toList)]

def asBytes (tool : SignedToolDef) : List UInt8 := layOut size tool.fields

def fromBytes (bytes : List UInt8) : Except DCPError SignedToolDef := do
  checkRecord size 36 40 bytes
  pure ⟨u32At bytes 0, arrayAt 32 bytes 4, u64At bytes 40, arrayAt 64 bytes 48,
    arrayAt 32 bytes 112⟩

def signedBytes (tool : SignedToolDef) : List UInt8 :=
  layOut signedBytesSize [(0, leBytes 4 tool.toolId.toNat), (4, tool.schemaHash.toList),
    (36, leBytes 8 tool.capabilities.toNat)]

/-- The message that the verifier puts together. -/
def message (tool : SignedToolDef) : List UInt8 :=
  leBytes 4 tool.toolId.toNat ++ tool.schemaHash.toList ++ leBytes 8 tool.capabilities.toNat

end SignedToolDef

namespace SignedInvocation

def size : Nat := 120

def signedBytesSize : Nat := 52

/-- The fields at their offsets. -/
def fields (inv : SignedInvocation) : Writes :=
  [(0, leBytes 4 inv.toolId.toNat), (8, leBytes 8 inv.nonce.toNat),
    (16, leBytes 8 inv.timestamp.toNat), (24, inv.argsHash.toList), (56, inv.signature.toList)]

def asBytes (inv : SignedInvocation) : List UInt8 := layOut size inv.fields

def fromBytes (bytes : List UInt8) : Except DCPError SignedInvocation := do
  checkRecord size 4 8 bytes
  pure ⟨u32At bytes 0, u64At bytes 8, u64At bytes 16, arrayAt 32 bytes 24, arrayAt 64 bytes 56⟩

def signedBytes (inv : SignedInvocation) : List UInt8 :=
  layOut signedBytesSize [(0, leBytes 4 inv.toolId.toNat), (4, leBytes 8 inv.nonce.toNat),
    (12, leBytes 8 inv.timestamp.toNat), (20, inv.argsHash.toList)]

end SignedInvocation

/-- The signing key of the ed25519 crate. -/
structure SigningKey where
  sign : List UInt8 → Signature
  verifyingKey : PublicKey

structure Signer where
  signingKey : SigningKey

namespace Signer

def signToolDef (signer : Signer) (toolId : UInt32) (schemaHash : Digest)
    (capabilities : UInt64) : SignedToolDef :=
  let message := leBytes 4 toolId.toNat ++ schemaHash.toList ++ leBytes 8 capabilities.toNat
  ⟨toolId, schemaHash, capabilities, signer.signingKey.sign message,
    signer.signingKey.verifyingKey⟩

def signInvocation (signer : Signer) (crypto : Crypto) (toolId : UInt32)
    (nonce timestamp : UInt64) (args : List UInt8) : SignedInvocation :=
  let argsHash := crypto.blake3 args
  let message := leBytes 4 toolId.toNat ++ leBytes 8 nonce.toNat ++ leBytes 8 timestamp.toNat ++
    argsHash.toList
  ⟨toolId, nonce, timestamp, argsHash, signer.signingKey.sign message⟩

end Signer

namespace Verifier

/-- Verify a signed tool definition. -/
def verifyToolDef (crypto : Crypto) (tool : SignedToolDef) : Except SecurityError Unit :=
  if ¬ crypto.verifyingKeyFromBytes tool.publicKey then .error .invalidSignature
  else if ¬ crypto.verify tool.publicKey tool.message tool.signature then
    .error .invalidSignature
  else .ok ()

end Verifier

def dcpMagic : UInt16 := 0xDC01

inductive MessageType
  | tool
  | resource
  | prompt
  | response
  | error
  | stream
  deriving DecidableEq

def MessageType.fromU8 : UInt8 → Option MessageType
  | 1 => some .tool
  | 2 => some .resource
  | 3 => some .prompt
  | 4 => some .response
  | 5 => some .error
  | 6 => some .stream
  | _ => none

namespace EnvelopeFlags

def streaming : UInt8 := 0b001
def compressed : UInt8 := 0b010
def signed : UInt8 := 0b100

end EnvelopeFlags

structure BinaryMessageEnvelope where
  magic : UInt16
  messageType : UInt8
  flags : UInt8
  payloadLen : UInt32
  deriving DecidableEq

namespace BinaryMessageEnvelope

def size : Nat := 8

/-- The bytes of the packed structure. -/
def asBytes (envelope : BinaryMessageEnvelope) : List UInt8 :=
  leBytes 2 envelope.magic.toNat ++ [envelope.messageType, envelope.flags] ++
    leBytes 4 envelope.payloadLen.toNat

/-- The first bytes are taken for the packed structure. -/
def fromBytes (bytes : List UInt8) : Except DCPError BinaryMessageEnvelope :=
  if bytes.length < size then .error .insufficientData
  else
    let envelope : BinaryMessageEnvelope :=
      ⟨u16At bytes 0, (bytes[2]?).getD 0, (bytes[3]?).getD 0, u32At bytes 4⟩
    if envelope.magic ≠ dcpMagic then .error .invalidMagic else .ok envelope

end BinaryMessageEnvelope

structure ParsedMessage where
  envelope : BinaryMessageEnvelope
  payload : List UInt8
  deriving DecidableEq

namespace MessageParser

def knownFlagBits : UInt8 :=
  EnvelopeFlags.streaming ||| EnvelopeFlags.compressed ||| EnvelopeFlags.signed

/-- The largest `usize` of a 64-bit host. -/
def usizeMax : Nat := 2 ^ 64 - 1

def validateMessageType (msgType : UInt8) : Except DCPError MessageType :=
  match MessageType.fromU8 msgType with
  | some messageType => .ok messageType
  | none => .error .unknownMessageType

def validateFlags (flags : UInt8) : Except DCPError Unit :=
  if flags &&& ~~~knownFlagBits = 0 then .ok () else .error .validationFailed

def parse (bytes : List UInt8) : Except DCPError ParsedMessage := do
  let envelope ← BinaryMessageEnvelope.fromBytes bytes
  let payloadStart := BinaryMessageEnvelope.size
  let payloadEnd := payloadStart + envelope.payloadLen.toNat
  if payloadEnd > usizeMax then throw .validationFailed
  let _ ← validateMessageType envelope.messageType
  validateFlags envelope.flags
  if bytes.length < payloadEnd then throw .insufficientData
  if bytes.length ≠ payloadEnd then throw .validationFailed
  pure ⟨envelope, slice bytes payloadStart payloadEnd⟩

end MessageParser
end Dcp
